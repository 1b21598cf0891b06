import Znn.Bytes.Framing
import Znn.Interaction.Transcript
import Znn.Injector.Sys

/-!
# The fanotify tracker

The kernel reports every exec of a marked file as a record that gives its own length. A read may
end within a record; `FanotifyTracker.drain` keeps the part until the rest of it arrives, unless
it has become too much by the end of a drain. Each record may carry a descriptor of the file,
which the tracker asks for its path and closes.
-/

namespace Znn.Injector

open Bytes Interaction

namespace Fanotify

def METADATA_SIZE : Nat := 24
def EVENT_LEN_OFFSET : Nat := 0
def MASK_OFFSET : Nat := 8
def FD_OFFSET : Nat := 16
def PID_OFFSET : Nat := 20

section Reading

variable (order : Order) (bytes : List UInt8) (offset : Nat)

/-- `count` bytes, read one after another: `none` where an index is out of range. -/
def readBytes (count : Nat) : Option Nat :=
  if offset + count ≤ bytes.length then
    some (order.value ((bytes.drop offset).take count))
  else
    none

def readU32 : Option Nat :=
  readBytes order bytes offset 4

def readI32 : Option Int :=
  (readU32 order bytes offset).map fun value => (BitVec.ofNat 32 value).toInt

def readU64 : Option Nat :=
  readBytes order bytes offset 8

end Reading

/-- `(Pid, RawFd, u64)`. -/
structure Item where
  pid : Pid
  fd : Int
  mask : Nat
deriving DecidableEq, Repr

/-- The iterator over the records of a buffer. -/
structure Events where
  remaining : List UInt8
  consumed : Nat := 0
deriving DecidableEq

/-- `next`: the record, if there is one more, and the iterator afterwards; `none` where an index
or a slice is out of range. -/
def Events.next (order : Order) (events : Events) : Option (Option Item × Events) :=
  if events.remaining.length < METADATA_SIZE then
    some (none, events)
  else do
    let eventLen ← readU32 order events.remaining EVENT_LEN_OFFSET
    if eventLen < METADATA_SIZE ∨ eventLen > events.remaining.length then
      return (none, events)
    let mask ← readU64 order events.remaining MASK_OFFSET
    let fd ← readI32 order events.remaining FD_OFFSET
    let pid ← readI32 order events.remaining PID_OFFSET
    if eventLen > events.remaining.length then
      none
    else
      return (some { pid := pid, fd := fd, mask := mask },
        { remaining := events.remaining.drop eventLen, consumed := events.consumed + eventLen })

/-- The items of an iterator until there is none, and the iterator then. -/
def Events.collect (order : Order) : Nat → Events → Option (List Item × Events)
  | 0, _ => none
  | fuel + 1, events =>
      match events.next order with
      | none => none
      | some (none, events) => some ([], events)
      | some (some item, events) =>
          (collect order fuel events).map fun (items, events) => (item :: items, events)

end Fanotify

open Fanotify

/-- What the tracker asks of the descriptors that it has been handed. -/
inductive DescriptorCall where
  | readLink (fd : Int)
  | close (fd : Int)
deriving DecidableEq

def Descriptors : Interface where
  Call := DescriptorCall
  Answer
    | .readLink _ => Option String
    | .close _ => Unit

structure FanotifyTracker where
  pending : List UInt8 := []
  reportedError : Bool := false

namespace FanotifyTracker

def READ_BUFFER_SIZE : Nat := 8192

def MAX_PENDING : Nat := 2 ^ 16

/-- What a read of the group's descriptor returns. -/
inductive EventRead where
  | read (bytes : List UInt8)
  | wouldBlock
  | interrupted
  | failed
deriving DecidableEq

def eventOf (pid : Pid) (filename : Option String) : KernelEvent where
  kind := .exec
  pid := pid
  filename := filename
  preExec := true

/-- The body of the loop of `emit_records`. -/
def emitRecord (events : List KernelEvent) (item : Item) : Prog Descriptors (List KernelEvent) := do
  let events ← if item.pid > 0 then do
    let filename ← Prog.perform (I := Descriptors) (.readLink item.fd)
    pure (events ++ [eventOf item.pid filename])
  else
    pure events
  if item.fd ≥ 0 then
    Prog.perform (I := Descriptors) (.close item.fd)
  return events

/-- `emit_records`: how many bytes it has consumed, and the events. The iterator looks at nothing
but the bytes, which stay as they are during the loop. -/
def emitRecords (order : Order) (pending : List UInt8) (events : List KernelEvent) :
    Prog Descriptors (Option (Nat × List KernelEvent)) :=
  match Events.collect order (pending.length + 1) { remaining := pending } with
  | none => pure none
  | some (items, records) => do
      let events ← items.foldlM emitRecord events
      return some (records.consumed, events)

/-- The loop of `drain`, with what the reads return; when nothing is left a read would block. -/
def readLoop (order : Order) (tracker : FanotifyTracker) : List EventRead → List KernelEvent →
    Prog Descriptors (Option (FanotifyTracker × List KernelEvent))
  | [], events | .wouldBlock :: _, events | .read [] :: _, events => pure (some (tracker, events))
  | .read (byte :: bytes) :: rest, events => do
      let pending := tracker.pending ++ byte :: bytes
      let some (consumed, events) ← emitRecords order pending events
        | return none
      if consumed > pending.length then
        return none
      readLoop order { tracker with pending := pending.drop consumed } rest events
  | .interrupted :: rest, events => readLoop order tracker rest events
  | .failed :: _, events => pure (some ({ tracker with reportedError := true }, events))

/-- `drain`: the tracker and the events afterwards; `none` where an index or a range is out of
bounds. -/
def drain (order : Order) (tracker : FanotifyTracker) (reads : List EventRead)
    (events : List KernelEvent) : Prog Descriptors (Option (FanotifyTracker × List KernelEvent)) := do
  let some (tracker, events) ← readLoop order tracker reads events
    | return none
  if tracker.pending.length > MAX_PENDING then
    return some ({ tracker with pending := [] }, events)
  return some (tracker, events)

/-- One drain after another. -/
def drainAll (order : Order) : List (List EventRead) → FanotifyTracker → List KernelEvent →
    Prog Descriptors (Option (FanotifyTracker × List KernelEvent))
  | [], tracker, events => pure (some (tracker, events))
  | reads :: rest, tracker, events => do
      let some (tracker, events) ← drain order tracker reads events
        | return none
      drainAll order rest tracker events

/-- The bytes that a drain takes out of the group. -/
def bytesOf : List EventRead → List UInt8
  | [] | .wouldBlock :: _ | .read [] :: _ | .failed :: _ => []
  | .read (byte :: bytes) :: rest => byte :: bytes ++ bytesOf rest
  | .interrupted :: rest => bytesOf rest

end FanotifyTracker

namespace Fanotify

/-- The bytes of a record: as many as it says, and all the fields among them. -/
structure Record (order : Order) where
  bytes : List UInt8
  long : METADATA_SIZE ≤ bytes.length
  counted : order.value ((bytes.drop EVENT_LEN_OFFSET).take 4) = bytes.length

namespace Record

variable {order : Order}

def field (record : Record order) (offset count : Nat) : Nat :=
  order.value ((record.bytes.drop offset).take count)

def item (record : Record order) : Item where
  pid := (BitVec.ofNat 32 (record.field PID_OFFSET 4)).toInt
  fd := (BitVec.ofNat 32 (record.field FD_OFFSET 4)).toInt
  mask := record.field MASK_OFFSET 8

end Record

/-- How far into a record of a stream its first `count` bytes reach. -/
def into {order : Order} : List (Record order) → Nat → Nat
  | [], _ => 0
  | record :: rest, count =>
      if record.bytes.length ≤ count then into rest (count - record.bytes.length) else count

/-- The iterator gives the fields of all records that the buffer begins with, in the order they
stand in, and has consumed as many bytes as they have. -/
def CollectsRecords (order : Order) (buffer : List UInt8) : Prop :=
  ∃ (records : List (Record order)) (rest : List UInt8),
    buffer = records.flatMap Record.bytes ++ rest ∧
      (∀ record : Record order, ¬record.bytes <+: rest) ∧
      ∀ fuel, buffer.length < fuel → Events.collect order fuel { remaining := buffer } =
        some (records.map Record.item, {
          remaining := rest
          consumed := (records.map fun record => record.bytes.length).sum })

section Records

variable {order : Order} {bytes more rest : List UInt8} {item : Item}

theorem readBytes_append {offset count : Nat} (inside : offset + count ≤ bytes.length) :
    readBytes order (bytes ++ more) offset count =
      some (order.value ((bytes.drop offset).take count)) := by
  rw [readBytes, if_pos (by rw [List.length_append]; omega),
    List.drop_append_of_le_length (by omega),
    List.take_append_of_le_length (by rw [List.length_drop]; omega)]

/-- A record at the front of a buffer is taken off it. -/
theorem next_record (record : Record order) (more : List UInt8) (consumed : Nat) :
    Events.next order { remaining := record.bytes ++ more, consumed := consumed } =
      some (some record.item, {
        remaining := more
        consumed := consumed + record.bytes.length }) := by
  have long := record.long
  have whole : ¬(record.bytes ++ more).length < METADATA_SIZE := by
    rw [List.length_append]
    omega
  have eventLen : readU32 order (record.bytes ++ more) EVENT_LEN_OFFSET =
      some record.bytes.length := by
    rw [readU32, readBytes_append (by rw [METADATA_SIZE] at long; rw [EVENT_LEN_OFFSET]; omega),
      record.counted]
  have fits : ¬record.bytes.length > (record.bytes ++ more).length := by
    rw [List.length_append]
    omega
  have counted : ¬(record.bytes.length < METADATA_SIZE ∨
      record.bytes.length > (record.bytes ++ more).length) :=
    not_or.mpr ⟨Nat.not_lt.mpr long, fits⟩
  rw [METADATA_SIZE] at long
  have mask : readU64 order (record.bytes ++ more) MASK_OFFSET =
      some (record.field MASK_OFFSET 8) :=
    readBytes_append (by rw [MASK_OFFSET]; omega)
  have fd : readI32 order (record.bytes ++ more) FD_OFFSET = some record.item.fd := by
    rw [readI32, readU32, readBytes_append (by rw [FD_OFFSET]; omega)]
    rfl
  have pid : readI32 order (record.bytes ++ more) PID_OFFSET = some record.item.pid := by
    rw [readI32, readU32, readBytes_append (by rw [PID_OFFSET]; omega)]
    rfl
  simp only [Events.next, if_neg whole, eventLen, Option.bind_eq_bind, Option.bind_some,
    if_neg counted, mask, fd, pid, if_neg fits, List.drop_left]
  rfl

/-- Where there is no record at the front of a buffer, the iterator ends. -/
theorem next_none (noRecord : ∀ record : Record order, ¬record.bytes <+: bytes) (consumed : Nat) :
    Events.next order { remaining := bytes, consumed := consumed } =
      some (none, { remaining := bytes, consumed := consumed }) := by
  rw [Events.next]
  split
  · rfl
  case isFalse long =>
    dsimp only at long
    have room : EVENT_LEN_OFFSET + 4 ≤ bytes.length := by
      rw [METADATA_SIZE] at long
      rw [EVENT_LEN_OFFSET]
      omega
    have eventLen : readU32 order bytes EVENT_LEN_OFFSET =
        some (order.value ((bytes.drop EVENT_LEN_OFFSET).take 4)) :=
      if_pos room
    have malformed : order.value ((bytes.drop EVENT_LEN_OFFSET).take 4) < METADATA_SIZE ∨
        order.value ((bytes.drop EVENT_LEN_OFFSET).take 4) > bytes.length := by
      by_contra wellFormed
      rw [not_or, Nat.not_lt, Nat.not_lt] at wellFormed
      rw [METADATA_SIZE] at wellFormed
      -- The bytes that the length speaks of are a record.
      refine noRecord {
        bytes := bytes.take (order.value ((bytes.drop EVENT_LEN_OFFSET).take 4))
        long := ?_
        counted := ?_ } (List.take_prefix _ _)
      · rw [List.length_take, Nat.min_eq_left wellFormed.2]
        exact wellFormed.1
      · rw [List.length_take, Nat.min_eq_left wellFormed.2, EVENT_LEN_OFFSET, List.drop_zero,
          List.drop_zero, List.take_take, Nat.min_eq_left (by
            rw [EVENT_LEN_OFFSET, List.drop_zero] at wellFormed
            omega)]
    simp only [eventLen, Option.bind_eq_bind, Option.bind_some, if_pos malformed]
    rfl

/-- What is at the front of a buffer, if anything is. -/
def recordAt (order : Order) (bytes : List UInt8) : Option (Item × List UInt8) :=
  match Events.next order { remaining := bytes } with
  | some (some item, events) => some (item, events.remaining)
  | _ => none

theorem recordAt_record (record : Record order) (more : List UInt8) :
    recordAt order (record.bytes ++ more) = some (record.item, more) := by
  rw [recordAt, next_record]

theorem recordAt_none (noRecord : ∀ record : Record order, ¬record.bytes <+: bytes) :
    recordAt order bytes = none := by
  rw [recordAt, next_none noRecord]

theorem recordAt_eq_some (found : recordAt order bytes = some (item, rest)) :
    ∃ record : Record order, bytes = record.bytes ++ rest ∧ item = record.item := by
  by_cases noRecord : ∀ record : Record order, ¬record.bytes <+: bytes
  · rw [recordAt_none noRecord] at found
    cases found
  · simp only [not_forall, not_not] at noRecord
    rcases noRecord with ⟨record, after, rfl⟩
    rw [recordAt_record] at found
    cases found
    exact ⟨record, rfl, rfl⟩

/-- The iterator takes record after record off a buffer. -/
def cutter (order : Order) : Cutter UInt8 Item where
  next := recordAt order
  shrinks found := by
    rcases recordAt_eq_some found with ⟨record, rfl, _⟩
    have long := record.long
    rw [METADATA_SIZE] at long
    rw [List.length_append]
    omega
  stable found more := by
    rcases recordAt_eq_some found with ⟨record, rfl, rfl⟩
    rw [List.append_assoc, recordAt_record]

theorem frames_record (record : Record order) (more : List UInt8) :
    (cutter order).frames (record.bytes ++ more) = record.item :: (cutter order).frames more ∧
      (cutter order).rest (record.bytes ++ more) = (cutter order).rest more :=
  (cutter order).frames_of_some (recordAt_record record more)

theorem frames_records (records : List (Record order)) (more : List UInt8) :
    (cutter order).frames (records.flatMap Record.bytes ++ more) =
        records.map Record.item ++ (cutter order).frames more ∧
      (cutter order).rest (records.flatMap Record.bytes ++ more) = (cutter order).rest more := by
  induction records with
  | nil => exact ⟨rfl, rfl⟩
  | cons record records ih =>
      rcases frames_record record (records.flatMap Record.bytes ++ more) with ⟨first, left⟩
      rw [List.flatMap_cons, List.append_assoc, first, left, ih.1, ih.2]
      exact ⟨rfl, rfl⟩

/-- Every buffer begins with some records and goes on without one. -/
theorem exists_records (order : Order) (buffer : List UInt8) :
    ∃ (records : List (Record order)) (rest : List UInt8),
      buffer = records.flatMap Record.bytes ++ rest ∧
        ∀ record : Record order, ¬record.bytes <+: rest := by
  induction size : buffer.length using Nat.strong_induction_on generalizing buffer with
  | _ size ih =>
      by_cases noRecord : ∀ record : Record order, ¬record.bytes <+: buffer
      · exact ⟨[], buffer, rfl, noRecord⟩
      · simp only [not_forall, not_not] at noRecord
        rcases noRecord with ⟨record, after, rfl⟩
        have long := record.long
        rw [METADATA_SIZE] at long
        rw [List.length_append] at size
        rcases ih after.length (by omega) after rfl with ⟨records, rest, rfl, none⟩
        refine ⟨record :: records, rest, ?_, none⟩
        rw [List.flatMap_cons, List.append_assoc]

theorem collect_records (records : List (Record order))
    (noRecord : ∀ record : Record order, ¬record.bytes <+: rest) (fuel consumed : Nat)
    (enough : (records.flatMap Record.bytes ++ rest).length < fuel) :
    Events.collect order fuel
        { remaining := records.flatMap Record.bytes ++ rest, consumed := consumed } =
      some (records.map Record.item, {
        remaining := rest
        consumed := consumed + (records.map fun record => record.bytes.length).sum }) := by
  induction records generalizing fuel consumed with
  | nil =>
      cases fuel with
      | zero => exact absurd enough (Nat.not_lt_zero _)
      | succ fuel => simp [Events.collect, next_none noRecord]
  | cons record records ih =>
      have long := record.long
      rw [METADATA_SIZE] at long
      rw [List.flatMap_cons, List.append_assoc, List.length_append] at enough
      cases fuel with
      | zero => exact absurd enough (Nat.not_lt_zero _)
      | succ fuel =>
          rw [List.flatMap_cons, List.append_assoc, Events.collect, next_record]
          dsimp only
          rw [ih fuel _ (by omega), Option.map_some, List.map_cons, List.map_cons, List.sum_cons,
            Nat.add_assoc]

theorem collectsRecords (order : Order) (buffer : List UInt8) : CollectsRecords order buffer := by
  rcases exists_records order buffer with ⟨records, rest, rfl, noRecord⟩
  refine ⟨records, rest, rfl, noRecord, ?_⟩
  intro fuel enough
  rw [collect_records records noRecord fuel 0 enough, Nat.zero_add]

/-- The loop of `emit_records` is over the frames of the buffer. -/
theorem collect_eq (buffer : List UInt8) :
    ∃ consumed, Events.collect order (buffer.length + 1) { remaining := buffer } =
        some ((cutter order).frames buffer, {
          remaining := (cutter order).rest buffer
          consumed := consumed }) ∧
      consumed ≤ buffer.length ∧ buffer.drop consumed = (cutter order).rest buffer := by
  rcases exists_records order buffer with ⟨records, rest, rfl, noRecord⟩
  have length : (records.flatMap Record.bytes).length =
      (records.map fun record => record.bytes.length).sum := List.length_flatMap
  rcases (cutter order).frames_of_none (recordAt_none noRecord) with ⟨nothing, last⟩
  rcases frames_records records rest with ⟨items, left⟩
  refine ⟨(records.map fun record => record.bytes.length).sum, ?_, ?_, ?_⟩
  · rw [collect_records records noRecord _ 0 (Nat.lt_succ_self _), items, left, nothing, last,
      List.append_nil, Nat.zero_add]
  · rw [List.length_append]
    omega
  · rw [left, last, ← length, List.drop_left]

end Records

end Fanotify

end Znn.Injector
