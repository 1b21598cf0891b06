import Znn.Injector.Connector

/-!
# Decoding of connector messages

`Connector.decode` once more, with every index and slice checked and with the arithmetic of the
machine word. Lengths from the wire decide where it reads. It is within the buffer and comes to an
end unless a length makes an offset wrap, which only a 32-bit build has room for; and on messages
as the kernel writes them it finds the events that they report.
-/

namespace Znn.Injector

open Bytes Usize

namespace Netlink

/-- `&bytes[start..stop]`. -/
def slice (bytes : List UInt8) (start stop : Nat) : Option (List UInt8) :=
  if start ≤ stop ∧ stop ≤ bytes.length then
    some ((bytes.drop start).take (stop - start))
  else
    none

namespace Checked

section Reading

variable (order : Order)

def readU16 (bytes : List UInt8) (offset : Nat) : Option Nat :=
  if offset + 2 ≤ bytes.length then some (Netlink.readU16 order bytes offset) else none

def readU32 (bytes : List UInt8) (offset : Nat) : Option Nat :=
  if offset + 4 ≤ bytes.length then some (Netlink.readU32 order bytes offset) else none

def readPid (bytes : List UInt8) (offset : Nat) : Option Pid :=
  if offset + 4 ≤ bytes.length then some (Netlink.readPid order bytes offset) else none

def decodePayload (payload : List UInt8) (events : List ProcEvent) : Option (List ProcEvent) :=
  if payload.length < CN_MESSAGE_SIZE + PROC_EVENT_HEADER_SIZE then
    some events
  else do
    let bodyLength ← readU16 order payload 16
    let body ← slice payload CN_MESSAGE_SIZE payload.length
    if bodyLength < PROC_EVENT_HEADER_SIZE ∨ bodyLength > body.length then
      return events
    let what ← readU32 order body 0
    if what = PROC_EVENT_FORK ∧ body.length ≥ 32 then
      let parent ← readPid order body 16
      let child ← readPid order body 24
      let childTgid ← readPid order body 28
      return if child = childTgid ∧ childTgid > 1 then
        events ++ [.fork parent childTgid]
      else
        events
    else if what = PROC_EVENT_EXEC ∧ body.length ≥ 24 then
      let pid ← readPid order body 16
      let tgid ← readPid order body 20
      return if pid = tgid ∧ tgid > 1 then events ++ [.exec tgid] else events
    else if what = PROC_EVENT_EXIT ∧ body.length ≥ 24 then
      let pid ← readPid order body 16
      let tgid ← readPid order body 20
      return if pid = tgid ∧ tgid > 1 then events ++ [.exit tgid] else events
    else
      return events

end Reading

end Checked

/-- What one turn of the loop of `decode` comes to. -/
inductive Turn where
  | leave
  | refuse (code : Int32)
  | go (offset : Nat) (events : List ProcEvent)

/-- How a run of `decode` ends, if it has. -/
inductive Decoding where
  | done (result : Except Int32 Unit) (events : List ProcEvent)
  | outOfRange
  | running
deriving DecidableEq

namespace Connector

variable [Usize] (order : Order) (connector : Connector) (length : Nat)

/-- The body of the loop: `none` where an index or a slice is out of range. -/
def turn (offset : Nat) (events : List ProcEvent) : Option Turn := do
  let header ← slice connector.buffer offset (wrappingAdd offset NLMSG_HEADER_SIZE)
  let messageLength ← Checked.readU32 order header 0
  let messageType ← Checked.readU16 order header 4
  if messageLength < NLMSG_HEADER_SIZE ∨ wrappingAdd offset messageLength > length then
    return .leave
  let payload ← slice connector.buffer (wrappingAdd offset NLMSG_HEADER_SIZE)
    (wrappingAdd offset messageLength)
  let next := wrappingAdd offset (wrappingAdd messageLength 3 / 4 * 4)
  if messageType = NLMSG_DONE then
    return .go next (← Checked.decodePayload order payload events)
  else if messageType = NLMSG_ERROR ∧ payload.length ≥ 4 then
    let error := Int32.ofNat (← Checked.readU32 order payload 0)
    if error ≠ 0 then
      return .refuse (-error)
    else
      return .go next events
  else
    return .go next events

/-- The loop of `decode`, for so many turns. -/
def turns : Nat → Nat → List ProcEvent → Decoding
  | 0, _, _ => .running
  | fuel + 1, offset, events =>
      if wrappingAdd offset NLMSG_HEADER_SIZE ≤ length then
        match connector.turn order length offset events with
        | none => .outOfRange
        | some .leave => .done (.ok ()) events
        | some (.refuse code) => .done (.error code) events
        | some (.go next after) => turns fuel next after
      else
        .done (.ok ()) events

/-- `decode`, for so many turns. -/
def decodeWithin (fuel : Nat) (events : List ProcEvent) : Decoding :=
  connector.turns order (min length connector.buffer.length) fuel 0 events

end Connector

section Checks

variable [Usize] {order : Order} {connector : Connector} {length offset : Nat}
  {bytes payload : List UInt8} {events : List ProcEvent}

omit [Usize] in
theorem slice_of_le {start stop : Nat} (ordered : start ≤ stop) (inside : stop ≤ bytes.length) :
    slice bytes start stop = some ((bytes.drop start).take (stop - start)) :=
  if_pos ⟨ordered, inside⟩

omit [Usize] in
/-- The lengths that are compared before the fields of a payload are read cover them. -/
theorem decodePayload_checked :
    Checked.decodePayload order payload events = some (decodePayload order payload events) := by
  rw [Checked.decodePayload, decodePayload, payloadEvent]
  by_cases short : payload.length < CN_MESSAGE_SIZE + PROC_EVENT_HEADER_SIZE
  · simp [short]
  · rw [if_neg short, if_neg short]
    have sizes : CN_MESSAGE_SIZE = 20 ∧ PROC_EVENT_HEADER_SIZE = 16 := ⟨rfl, rfl⟩
    have whole : (payload.drop CN_MESSAGE_SIZE).take (payload.length - CN_MESSAGE_SIZE) =
        payload.drop CN_MESSAGE_SIZE :=
      List.take_of_length_le (by simp)
    have bodyLength : Checked.readU16 order payload 16 = some (readU16 order payload 16) :=
      if_pos (by omega)
    have cut : slice payload CN_MESSAGE_SIZE payload.length =
        some (payload.drop CN_MESSAGE_SIZE) := by
      rw [slice_of_le (by omega) (Nat.le_refl _), whole]
    have long : PROC_EVENT_HEADER_SIZE ≤ (payload.drop CN_MESSAGE_SIZE).length := by
      rw [List.length_drop]
      omega
    simp only [bodyLength, cut, Option.bind_eq_bind, Option.bind_some]
    generalize payload.drop CN_MESSAGE_SIZE = body at long ⊢
    have what : Checked.readU32 order body 0 = some (readU32 order body 0) := if_pos (by omega)
    have pid : ∀ place, place + 4 ≤ body.length →
        Checked.readPid order body place = some (readPid order body place) :=
      fun place inside => if_pos inside
    simp only [what, Option.bind_some]
    by_cases declared : readU16 order payload 16 < PROC_EVENT_HEADER_SIZE ∨
        readU16 order payload 16 > body.length
    · simp [declared]
    · simp only [if_neg declared]
      by_cases fork : readU32 order body 0 = PROC_EVENT_FORK ∧ body.length ≥ 32
      · simp only [if_pos fork, pid 16 (by omega), pid 24 (by omega), pid 28 (by omega),
          Option.bind_some]
        split <;> simp [*]
      · by_cases exec : readU32 order body 0 = PROC_EVENT_EXEC ∧ body.length ≥ 24
        · simp only [if_neg fork, if_pos exec, pid 16 (by omega), pid 20 (by omega),
            Option.bind_some]
          split <;> simp [*]
        · by_cases exit : readU32 order body 0 = PROC_EVENT_EXIT ∧ body.length ≥ 24
          · simp only [if_neg fork, if_neg exec, if_pos exit, pid 16 (by omega),
              pid 20 (by omega), Option.bind_some]
            split <;> simp [*]
          · simp [if_neg fork, if_neg exec, if_neg exit]

omit [Usize] in
theorem readU32_lt (bytes : List UInt8) (offset : Nat) : readU32 order bytes offset < 2 ^ 32 := by
  have small := order.value_lt ((bytes.drop offset).take 4)
  have short : ((bytes.drop offset).take 4).length ≤ 4 := List.length_take_le 4 _
  have bound : 256 ^ ((bytes.drop offset).take 4).length ≤ 256 ^ 4 :=
    Nat.pow_le_pow_right (by decide) short
  rw [readU32]
  omega

/-- The header of the message at an offset. -/
def headerAt (connector : Connector) (offset : Nat) : List UInt8 :=
  (connector.buffer.drop offset).take NLMSG_HEADER_SIZE

def messageLengthAt (order : Order) (connector : Connector) (offset : Nat) : Nat :=
  readU32 order (headerAt connector offset) 0

/-- The payload of the message at an offset. -/
def payloadAt (order : Order) (connector : Connector) (offset : Nat) : List UInt8 :=
  (connector.buffer.drop (offset + NLMSG_HEADER_SIZE)).take
    (messageLengthAt order connector offset - NLMSG_HEADER_SIZE)

/-- The turn on a message that is complete. -/
def turnAt (order : Order) (connector : Connector) (offset : Nat) (events : List ProcEvent) :
    Turn :=
  let next := offset + aligned (messageLengthAt order connector offset)
  let payload := payloadAt order connector offset
  if readU16 order (headerAt connector offset) 4 = NLMSG_DONE then
    .go next (decodePayload order payload events)
  else if readU16 order (headerAt connector offset) 4 = NLMSG_ERROR ∧ payload.length ≥ 4 then
    let error := Int32.ofNat (readU32 order payload 0)
    if error ≠ 0 then .refuse (-error) else .go next events
  else
    .go next events

/-- The message at an offset reports an error. -/
def Refuses (order : Order) (connector : Connector) (offset : Nat) : Prop :=
  readU16 order (headerAt connector offset) 4 = NLMSG_ERROR ∧
    (payloadAt order connector offset).length ≥ 4 ∧
      Int32.ofNat (readU32 order (payloadAt order connector offset) 0) ≠ 0

/-- The header at an offset is read and gives the message a length that a message can have. -/
structure Headed (order : Order) (connector : Connector) (length offset : Nat) : Prop where
  inside : offset + NLMSG_HEADER_SIZE ≤ length
  long : NLMSG_HEADER_SIZE ≤ messageLengthAt order connector offset

/-- The message at an offset is complete, and decoding goes on behind it. -/
structure Passed (order : Order) (connector : Connector) (length offset : Nat) : Prop
    extends Headed order connector length offset where
  complete : offset + messageLengthAt order connector offset ≤ length
  fine : ¬Refuses order connector offset

/-- The offsets that decoding comes to from one of them: behind every message that it passes. -/
inductive Reaches (order : Order) (connector : Connector) (length : Nat) : Nat → Nat → Prop
  | here (offset : Nat) : Reaches order connector length offset offset
  | behind {offset place : Nat} (passed : Passed order connector length offset)
      (further : Reaches order connector length
        (offset + aligned (messageLengthAt order connector offset)) place) :
      Reaches order connector length offset place

/-- The length of the message at an offset does not fit behind it into the machine word. -/
def Wraps (order : Order) (connector : Connector) (offset : Nat) : Prop :=
  count ≤ offset + messageLengthAt order connector offset

instance : Decidable (Wraps order connector offset) :=
  inferInstanceAs (Decidable (count ≤ _))

/-- What a turn comes to, for a message in a buffer of a size that can be allocated. -/
theorem turn_eq (allocated : 2 * connector.buffer.length < count)
    (limit : length ≤ connector.buffer.length) (inside : offset + NLMSG_HEADER_SIZE ≤ length) :
    connector.turn order length offset events =
      if messageLengthAt order connector offset < NLMSG_HEADER_SIZE then some .leave
      else if Wraps order connector offset then none
      else if offset + messageLengthAt order connector offset > length then some .leave
      else some (turnAt order connector offset events) := by
  have header : NLMSG_HEADER_SIZE = 16 := rfl
  have word := word_le_count
  have small := @readU32_lt order (headerAt connector offset) 0
  have start : wrappingAdd offset NLMSG_HEADER_SIZE = offset + NLMSG_HEADER_SIZE :=
    wrappingAdd_of_lt (by omega)
  have cut : slice connector.buffer offset (offset + NLMSG_HEADER_SIZE) =
      some (headerAt connector offset) := by
    rw [slice_of_le (by omega) (by omega), Nat.add_sub_cancel_left]
    rfl
  have size : (headerAt connector offset).length = 16 := by
    rw [headerAt, List.length_take, List.length_drop]
    omega
  have messageLength : Checked.readU32 order (headerAt connector offset) 0 =
      some (messageLengthAt order connector offset) := if_pos (by omega)
  have messageType : Checked.readU16 order (headerAt connector offset) 4 =
      some (readU16 order (headerAt connector offset) 4) := if_pos (by omega)
  rw [Connector.turn, start, cut]
  simp only [messageLength, messageType, Option.bind_eq_bind, Option.bind_some]
  rw [← messageLengthAt] at small
  by_cases short : messageLengthAt order connector offset < NLMSG_HEADER_SIZE
  · rw [if_pos (.inl short), if_pos short]
    rfl
  by_cases wraps : Wraps order connector offset
  · -- The end of the message comes out before its beginning, and so within the buffer.
    have wrapped := wraps
    rw [Wraps] at wrapped
    have stop : wrappingAdd offset (messageLengthAt order connector offset) =
        offset + messageLengthAt order connector offset - count := by
      rw [wrappingAdd, Nat.mod_eq_sub_mod wrapped, Nat.mod_eq_of_lt (by omega)]
    have empty : slice connector.buffer (offset + NLMSG_HEADER_SIZE)
        (offset + messageLengthAt order connector offset - count) = none :=
      if_neg (by omega)
    rw [stop, if_neg (by omega), if_neg short, if_pos wraps, empty]
    rfl
  · have exact : wrappingAdd offset (messageLengthAt order connector offset) =
        offset + messageLengthAt order connector offset :=
      wrappingAdd_of_lt (by rw [Wraps] at wraps; omega)
    rw [exact, if_neg short, if_neg wraps]
    by_cases beyond : offset + messageLengthAt order connector offset > length
    · rw [if_pos (.inr beyond), if_pos beyond]
      rfl
    · have padded : wrappingAdd (messageLengthAt order connector offset) 3 =
          messageLengthAt order connector offset + 3 := wrappingAdd_of_lt (by omega)
      have next : wrappingAdd offset ((messageLengthAt order connector offset + 3) / 4 * 4) =
          offset + aligned (messageLengthAt order connector offset) :=
        wrappingAdd_of_lt (by omega)
      have payload : slice connector.buffer (offset + NLMSG_HEADER_SIZE)
          (offset + messageLengthAt order connector offset) =
            some (payloadAt order connector offset) := by
        rw [slice_of_le (by omega) (by omega), payloadAt, Nat.add_sub_add_left]
      rw [if_neg (by omega), if_neg beyond, payload, padded, next]
      simp only [Option.bind_some, decodePayload_checked, turnAt]
      split
      · rfl
      · split
        case isTrue error =>
          have read : Checked.readU32 order (payloadAt order connector offset) 0 =
              some (readU32 order (payloadAt order connector offset) 0) := if_pos (by omega)
          simp only [read, Option.bind_some]
          split <;> rfl
        case isFalse => rfl

omit [Usize] in
theorem turnAt_refuses (refuses : Refuses order connector offset) :
    ∃ code, turnAt order connector offset events = .refuse code := by
  rcases refuses with ⟨isError, long, error⟩
  have notDone : ¬readU16 order (headerAt connector offset) 4 = NLMSG_DONE := by
    rw [isError]
    decide
  rw [turnAt]
  dsimp only
  rw [if_neg notDone, if_pos ⟨isError, long⟩, if_pos error]
  exact ⟨_, rfl⟩

omit [Usize] in
theorem turnAt_goes (fine : ¬Refuses order connector offset) (events : List ProcEvent) :
    ∃ after, turnAt order connector offset events =
      .go (offset + aligned (messageLengthAt order connector offset)) after := by
  rw [turnAt]
  dsimp only
  split
  · exact ⟨_, rfl⟩
  · split
    case isTrue isError =>
      rw [if_neg (fun error => fine ⟨isError.1, isError.2, error⟩)]
      exact ⟨_, rfl⟩
    case isFalse => exact ⟨_, rfl⟩

omit [Usize] in
theorem le_aligned (size : Nat) : size ≤ aligned size ∧ aligned size ≤ size + 3 := by
  rw [aligned]
  omega

/-- A turn of the loop on a message that is complete. -/
theorem turns_complete (allocated : 2 * connector.buffer.length < count)
    (limit : length ≤ connector.buffer.length) (headed : Headed order connector length offset)
    (complete : offset + messageLengthAt order connector offset ≤ length) (fuel : Nat) :
    connector.turns order length (fuel + 1) offset events =
      match turnAt order connector offset events with
      | .leave => .done (.ok ()) events
      | .refuse code => .done (.error code) events
      | .go next after => connector.turns order length fuel next after := by
  have header : NLMSG_HEADER_SIZE = 16 := rfl
  have inside := headed.inside
  have long := headed.long
  have fits : ¬Wraps order connector offset := by
    rw [Wraps]
    omega
  have start : wrappingAdd offset NLMSG_HEADER_SIZE = offset + NLMSG_HEADER_SIZE :=
    wrappingAdd_of_lt (by omega)
  rw [Connector.turns, start, if_pos inside, turn_eq allocated limit inside, if_neg (by omega),
    if_neg fits, if_neg (by omega)]
  rcases turnAt order connector offset events <;> rfl

/-- The loop leaves off where there is no complete message. -/
theorem turns_ended (allocated : 2 * connector.buffer.length < count)
    (limit : length ≤ connector.buffer.length) (near : offset ≤ length + 3)
    (straight : Headed order connector length offset → ¬Wraps order connector offset)
    (ended : Headed order connector length offset →
      length < offset + messageLengthAt order connector offset) (fuel : Nat) :
    connector.turns order length (fuel + 1) offset events = .done (.ok ()) events := by
  have header : NLMSG_HEADER_SIZE = 16 := rfl
  have word := word_le_count
  have start : wrappingAdd offset NLMSG_HEADER_SIZE = offset + NLMSG_HEADER_SIZE :=
    wrappingAdd_of_lt (by omega)
  rw [Connector.turns, start]
  by_cases inside : offset + NLMSG_HEADER_SIZE ≤ length
  · rw [if_pos inside, turn_eq allocated limit inside]
    by_cases long : NLMSG_HEADER_SIZE ≤ messageLengthAt order connector offset
    · rw [if_neg (Nat.not_lt.mpr long), if_neg (straight ⟨inside, long⟩),
        if_pos (ended ⟨inside, long⟩)]
    · rw [if_pos (Nat.lt_of_not_le long)]
  · rw [if_neg inside]

/-- A length that wraps takes a slice out of range. -/
theorem turns_wraps (allocated : 2 * connector.buffer.length < count)
    (limit : length ≤ connector.buffer.length) (headed : Headed order connector length offset)
    (wraps : Wraps order connector offset) (fuel : Nat) :
    connector.turns order length (fuel + 1) offset events = .outOfRange := by
  have inside := headed.inside
  have start : wrappingAdd offset NLMSG_HEADER_SIZE = offset + NLMSG_HEADER_SIZE :=
    wrappingAdd_of_lt (by omega)
  rw [Connector.turns, start, if_pos inside, turn_eq allocated limit inside,
    if_neg (Nat.not_lt.mpr headed.long), if_pos wraps]

/-- Decoding comes to an end if no length wraps on the way. -/
theorem turns_done (allocated : 2 * connector.buffer.length < count)
    (limit : length ≤ connector.buffer.length) (offset : Nat) (near : offset ≤ length + 3)
    (straight : ∀ place, Reaches order connector length offset place →
      Headed order connector length place → ¬Wraps order connector place)
    (events : List ProcEvent) :
    ∃ result after, ∀ fuel, length ≤ offset + fuel →
      connector.turns order length (fuel + 1) offset events = .done result after := by
  have header : NLMSG_HEADER_SIZE = 16 := rfl
  induction room : length + 4 - offset using Nat.strong_induction_on generalizing offset events with
  | _ room ih =>
      by_cases goesOn : Headed order connector length offset ∧
          offset + messageLengthAt order connector offset ≤ length
      · rcases goesOn with ⟨headed, complete⟩
        have inside := headed.inside
        have long := headed.long
        by_cases fine : Refuses order connector offset
        · rcases @turnAt_refuses order _ _ events fine with ⟨code, turn⟩
          refine ⟨.error code, events, ?_⟩
          intro fuel _
          rw [turns_complete allocated limit headed complete, turn]
        · rcases turnAt_goes fine events with ⟨middle, turn⟩
          have ahead := le_aligned (messageLengthAt order connector offset)
          have passed : Passed order connector length offset := ⟨headed, complete, fine⟩
          rcases ih _ (by omega) (offset + aligned (messageLengthAt order connector offset))
            (by omega) (fun place reaches => straight place (.behind passed reaches)) middle rfl with
              ⟨result, after, later⟩
          refine ⟨result, after, ?_⟩
          intro fuel enough
          cases fuel with
          | zero => omega
          | succ fuel =>
              rw [turns_complete allocated limit headed complete, turn]
              exact later fuel (by omega)
      · refine ⟨.ok (), events, ?_⟩
        intro fuel _
        refine turns_ended allocated limit near (straight offset (.here offset)) ?_ fuel
        intro headed
        exact Nat.lt_of_not_le fun complete => goesOn ⟨headed, complete⟩

/-- Decoding does not survive a length that wraps on the way. -/
theorem turns_outOfRange (allocated : 2 * connector.buffer.length < count)
    (limit : length ≤ connector.buffer.length) {place : Nat}
    (reaches : Reaches order connector length offset place)
    (headed : Headed order connector length place) (wraps : Wraps order connector place)
    (events : List ProcEvent) :
    ∃ least, ∀ fuel, least ≤ fuel →
      connector.turns order length (fuel + 1) offset events = .outOfRange := by
  induction reaches generalizing events with
  | here offset => exact ⟨0, fun fuel _ => turns_wraps allocated limit headed wraps fuel⟩
  | @behind offset place passed further ih =>
      rcases turnAt_goes passed.fine events with ⟨middle, turn⟩
      rcases ih headed wraps middle with ⟨least, later⟩
      refine ⟨least + 1, ?_⟩
      intro fuel enough
      cases fuel with
      | zero => omega
      | succ fuel =>
          rw [turns_complete allocated limit passed.toHeaded passed.complete, turn]
          exact later fuel (by omega)

end Checks

section Messages

/-- What a proc event reports, with the fields that it reports it in. -/
inductive Report where
  | fork (parentPid parentTgid childPid childTgid : Int32)
  | exec (pid tgid : Int32)
  | exit (pid tgid : Int32)
  | other (what : UInt32) (notFork : what.toNat ≠ PROC_EVENT_FORK)
      (notExec : what.toNat ≠ PROC_EVENT_EXEC) (notExit : what.toNat ≠ PROC_EVENT_EXIT)

/-- A `pid_t` in memory. -/
def pidBytes (order : Order) (pid : Int32) : List UInt8 :=
  order.bytes 4 pid.toUInt32.toNat

namespace Report

def what : Report → Nat
  | fork .. => PROC_EVENT_FORK
  | exec .. => PROC_EVENT_EXEC
  | exit .. => PROC_EVENT_EXIT
  | other what .. => what.toNat

def fields (order : Order) : Report → List UInt8
  | fork parentPid parentTgid childPid childTgid =>
      pidBytes order parentPid ++ pidBytes order parentTgid ++ pidBytes order childPid ++
        pidBytes order childTgid
  | exec pid tgid => pidBytes order pid ++ pidBytes order tgid
  | exit pid tgid => pidBytes order pid ++ pidBytes order tgid
  | other .. => []

/-- The event of a report, if it is of the leader of a thread group with a pid above 1. -/
def event : Report → Option ProcEvent
  | fork parentPid _ childPid childTgid =>
      if childPid = childTgid ∧ childTgid.toInt > 1 then
        some (.fork parentPid.toInt childTgid.toInt)
      else
        none
  | exec pid tgid => if pid = tgid ∧ tgid.toInt > 1 then some (.exec tgid.toInt) else none
  | exit pid tgid => if pid = tgid ∧ tgid.toInt > 1 then some (.exit tgid.toInt) else none
  | other .. => none

end Report

variable (order : Order)

/-- A connector message with a proc event. Its body is the event; the payload may go on behind
the body, and the body behind the fields. -/
structure EventMessage where
  address : Vector UInt8 16
  flags : Vector UInt8 2
  stamp : Vector UInt8 12
  report : Report
  union : List UInt8
  trailer : List UInt8
  small : PROC_EVENT_HEADER_SIZE + ((report.fields order).length + union.length) < 2 ^ 16

def EventMessage.payload (message : EventMessage order) : List UInt8 :=
  message.address.toList ++ (order.bytes 2
      (PROC_EVENT_HEADER_SIZE + ((message.report.fields order).length + message.union.length)) ++
    (message.flags.toList ++ (order.bytes 4 message.report.what ++ (message.stamp.toList ++
      (message.report.fields order ++ (message.union ++ message.trailer))))))

/-- What a message is about: a proc event, or anything else but an error. -/
inductive Content where
  | event (message : EventMessage order)
  | other (messageType : UInt16) (payload : List UInt8)
      (notDone : messageType.toNat ≠ NLMSG_DONE)
      (fine : ¬(messageType.toNat = NLMSG_ERROR ∧ payload.length ≥ 4 ∧
        Int32.ofNat (readU32 order payload 0) ≠ 0))

namespace Content

variable {order}

def messageType : Content order → Nat
  | event _ => NLMSG_DONE
  | other messageType .. => messageType.toNat

def payload : Content order → List UInt8
  | event message => message.payload
  | other _ payload .. => payload

def reported : Content order → Option ProcEvent
  | event message => message.report.event
  | other .. => none

end Content

/-- A netlink message, filled up to a multiple of four bytes. -/
structure Message where
  flags : Vector UInt8 10
  content : Content order
  padding : List UInt8
  small : NLMSG_HEADER_SIZE + content.payload.length < 2 ^ 32
  padded : NLMSG_HEADER_SIZE + content.payload.length + padding.length =
    aligned (NLMSG_HEADER_SIZE + content.payload.length)

namespace Message

variable {order}

def header (message : Message order) : List UInt8 :=
  order.bytes 4 (NLMSG_HEADER_SIZE + message.content.payload.length) ++
    (order.bytes 2 message.content.messageType ++ message.flags.toList)

def bytes (message : Message order) : List UInt8 :=
  message.header ++ (message.content.payload ++ message.padding)

end Message

variable {order} {front rest : List UInt8} {offset value : Nat}

theorem readU32_at (size : front.length = offset) (small : value < 2 ^ 32) :
    readU32 order (front ++ (order.bytes 4 value ++ rest)) offset = value := by
  rw [readU32, ← size, List.drop_left, List.take_left' (order.length_bytes 4 value),
    order.value_bytes]
  exact Nat.mod_eq_of_lt small

theorem readU16_at (size : front.length = offset) (small : value < 2 ^ 16) :
    readU16 order (front ++ (order.bytes 2 value ++ rest)) offset = value := by
  rw [readU16, ← size, List.drop_left, List.take_left' (order.length_bytes 2 value),
    order.value_bytes]
  exact Nat.mod_eq_of_lt small

theorem readPid_at (size : front.length = offset) (pid : Int32) :
    readPid order (front ++ (pidBytes order pid ++ rest)) offset = pid.toInt := by
  have same : BitVec.ofNat 32 pid.toUInt32.toNat = pid.toBitVec := by
    rw [← UInt32.toNat_toBitVec, BitVec.ofNat_toNat]
    exact BitVec.setWidth_eq _
  rw [readPid, pidBytes, readU32_at size pid.toUInt32.toNat_lt, same]
  rfl

@[simp]
theorem length_pidBytes (pid : Int32) : (pidBytes order pid).length = 4 :=
  order.length_bytes 4 _

/-- The body of a payload, with the report that is looked for in it. -/
def EventMessage.body (message : EventMessage order) : List UInt8 :=
  (order.bytes 4 message.report.what ++ message.stamp.toList) ++
    (message.report.fields order ++ (message.union ++ message.trailer))

theorem drop_payload (message : EventMessage order) :
    message.payload.drop CN_MESSAGE_SIZE = message.body := by
  have cut : message.payload = (message.address.toList ++ (order.bytes 2 (PROC_EVENT_HEADER_SIZE +
      ((message.report.fields order).length + message.union.length)) ++ message.flags.toList)) ++
        message.body := by
    simp [EventMessage.payload, EventMessage.body]
  rw [cut]
  exact List.drop_left' (by simp [CN_MESSAGE_SIZE])

theorem what_lt (report : Report) : report.what < 2 ^ 32 := by
  have known : PROC_EVENT_FORK < 2 ^ 32 ∧ PROC_EVENT_EXEC < 2 ^ 32 ∧ PROC_EVENT_EXIT < 2 ^ 32 := by
    decide
  cases report with
  | fork => exact known.1
  | exec => exact known.2.1
  | exit => exact known.2.2
  | other what => exact what.toNat_lt

/-- The fields of a report stand behind the header of the event. -/
theorem readPid_body {message : EventMessage order} {before after : List UInt8} {pid : Int32}
    {place : Nat}
    (fields : message.report.fields order = before ++ (pidBytes order pid ++ after))
    (located : PROC_EVENT_HEADER_SIZE + before.length = place) :
    readPid order message.body place = pid.toInt := by
  have cut : message.body = (order.bytes 4 message.report.what ++ message.stamp.toList ++ before) ++
      (pidBytes order pid ++ (after ++ (message.union ++ message.trailer))) := by
    simp [EventMessage.body, fields]
  rw [cut, ← located]
  exact readPid_at (by simp [PROC_EVENT_HEADER_SIZE]; omega) pid

/-- The event that a payload is about is found in it. -/
theorem payloadEvent_eq (message : EventMessage order) :
    payloadEvent order message.payload = message.report.event := by
  have sizes : CN_MESSAGE_SIZE = 20 ∧ PROC_EVENT_HEADER_SIZE = 16 := ⟨rfl, rfl⟩
  have body := drop_payload message
  have bodySize : message.body.length =
      16 + ((message.report.fields order).length + (message.union.length + message.trailer.length)) := by
    simp [EventMessage.body]
    omega
  have size : message.payload.length = CN_MESSAGE_SIZE + message.body.length := by
    have long : CN_MESSAGE_SIZE ≤ message.payload.length := by
      simp [EventMessage.payload, CN_MESSAGE_SIZE]
      omega
    rw [← body, List.length_drop]
    omega
  have declared : readU16 order message.payload 16 =
      PROC_EVENT_HEADER_SIZE + ((message.report.fields order).length + message.union.length) :=
    readU16_at (by simp) message.small
  have what : readU32 order message.body 0 = message.report.what := by
    have found := @readU32_at order [] (message.stamp.toList ++ (message.report.fields order ++
      (message.union ++ message.trailer))) 0 _ rfl (what_lt message.report)
    rw [EventMessage.body, List.append_assoc]
    exact found
  rw [payloadEvent, if_neg (by omega)]
  dsimp only
  rw [body, declared, if_neg (by omega), what]
  cases report : message.report with
  | fork parentPid parentTgid childPid childTgid =>
      have parentRead : readPid order message.body 16 = parentPid.toInt :=
        @readPid_body _ _ [] (pidBytes order parentTgid ++ (pidBytes order childPid ++
          pidBytes order childTgid)) _ _ (by rw [report]; simp [Report.fields]) rfl
      have childRead : readPid order message.body 24 = childPid.toInt :=
        @readPid_body _ _ (pidBytes order parentPid ++ pidBytes order parentTgid)
          (pidBytes order childTgid) _ _
          (by rw [report]; simp [Report.fields]) (by simp [PROC_EVENT_HEADER_SIZE])
      have tgidRead : readPid order message.body 28 = childTgid.toInt :=
        @readPid_body _ _ (pidBytes order parentPid ++ (pidBytes order parentTgid ++
          pidBytes order childPid)) [] _ _ (by rw [report]; simp [Report.fields])
            (by simp [PROC_EVENT_HEADER_SIZE])
      have long : message.body.length ≥ 32 := by
        simp [bodySize, report, Report.fields]
        omega
      simp [Report.what, Report.event, long, parentRead, childRead, tgidRead, Int32.toInt_inj]
  | exec pid tgid =>
      have pidRead : readPid order message.body 16 = pid.toInt :=
        @readPid_body _ _ [] _ _ _ (by rw [report]; rfl) rfl
      have tgidRead : readPid order message.body 20 = tgid.toInt :=
        @readPid_body _ _ (pidBytes order pid) [] _ _ (by rw [report]; simp [Report.fields])
          (by simp [PROC_EVENT_HEADER_SIZE])
      have long : message.body.length ≥ 24 := by
        simp [bodySize, report, Report.fields]
        omega
      have notFork : PROC_EVENT_EXEC ≠ PROC_EVENT_FORK := by decide
      simp [Report.what, Report.event, notFork, long, pidRead, tgidRead, Int32.toInt_inj]
  | exit pid tgid =>
      have pidRead : readPid order message.body 16 = pid.toInt :=
        @readPid_body _ _ [] _ _ _ (by rw [report]; rfl) rfl
      have tgidRead : readPid order message.body 20 = tgid.toInt :=
        @readPid_body _ _ (pidBytes order pid) [] _ _ (by rw [report]; simp [Report.fields])
          (by simp [PROC_EVENT_HEADER_SIZE])
      have long : message.body.length ≥ 24 := by
        simp [bodySize, report, Report.fields]
        omega
      have notFork : PROC_EVENT_EXIT ≠ PROC_EVENT_FORK := by decide
      have notExec : PROC_EVENT_EXIT ≠ PROC_EVENT_EXEC := by decide
      simp [Report.what, Report.event, notFork, notExec, long, pidRead, tgidRead, Int32.toInt_inj]
  | other what notFork notExec notExit =>
      simp [Report.what, Report.event, notFork, notExec, notExit]

end Messages

section Batches

variable [Usize] {order : Order} {connector : Connector} {length offset : Nat}
  {events : List ProcEvent} {front rest : List UInt8}

omit [Usize]

theorem length_header (message : Message order) : message.header.length = NLMSG_HEADER_SIZE := by
  simp [Message.header, NLMSG_HEADER_SIZE]

theorem messageType_lt (content : Content order) : content.messageType < 2 ^ 16 := by
  cases content with
  | event => exact (by decide : NLMSG_DONE < 2 ^ 16)
  | other messageType => exact messageType.toNat_lt

/-- What decoding finds where a message stands. -/
theorem found_at {message : Message order}
    (stands : connector.buffer = front ++ (message.bytes ++ rest)) (here : front.length = offset) :
    messageLengthAt order connector offset =
        NLMSG_HEADER_SIZE + message.content.payload.length ∧
      readU16 order (headerAt connector offset) 4 = message.content.messageType ∧
        payloadAt order connector offset = message.content.payload := by
  have header : headerAt connector offset = message.header := by
    rw [headerAt, stands, ← here, List.drop_left, Message.bytes, List.append_assoc,
      List.take_left' (length_header message)]
  have messageLength : messageLengthAt order connector offset =
      NLMSG_HEADER_SIZE + message.content.payload.length := by
    rw [messageLengthAt, header]
    exact @readU32_at order [] _ 0 _ rfl message.small
  refine ⟨messageLength, ?_, ?_⟩
  · rw [header]
    exact readU16_at (order.length_bytes 4 _) (messageType_lt message.content)
  · have behind : (front ++ message.header).length = offset + NLMSG_HEADER_SIZE := by
      rw [List.length_append, length_header, here]
    rw [payloadAt, messageLength, Nat.add_sub_cancel_left, stands, Message.bytes,
      List.append_assoc, ← List.append_assoc front, List.drop_left' behind, List.append_assoc,
      List.take_left]

theorem length_bytes (message : Message order) :
    message.bytes.length = aligned (NLMSG_HEADER_SIZE + message.content.payload.length) := by
  rw [← message.padded, Message.bytes, List.length_append, length_header, List.length_append,
    Nat.add_assoc]

/-- A turn on a message pushes what the message reports. -/
theorem turnAt_message {message : Message order}
    (stands : connector.buffer = front ++ (message.bytes ++ rest)) (here : front.length = offset) :
    turnAt order connector offset events =
      .go (offset + message.bytes.length) (events ++ message.content.reported.toList) := by
  rcases found_at stands here with ⟨messageLength, messageType, payload⟩
  rw [turnAt, messageLength, messageType, payload, length_bytes]
  dsimp only
  cases message.content with
  | event message =>
      simp only [Content.messageType, Content.payload, Content.reported, if_true, decodePayload,
        payloadEvent_eq]
  | other messageType payload notDone fine =>
      have other : ¬(Content.other messageType payload notDone fine).messageType = NLMSG_DONE :=
        notDone
      have nothing : events ++ (Content.other messageType payload notDone fine).reported.toList =
          events := List.append_nil events
      rw [if_neg other, nothing]
      split
      case isTrue isError =>
        exact if_neg fun error => fine ⟨isError.1, isError.2, error⟩
      case isFalse => rfl

variable [Usize]

/-- Over a batch of messages the loop pushes the events that they report, one after another. -/
theorem turns_messages (allocated : 2 * connector.buffer.length < count)
    (messages : List (Message order)) (front rest : List UInt8)
    (stands : connector.buffer = front ++ (messages.flatMap Message.bytes ++ rest))
    (ends : length = front.length + (messages.flatMap Message.bytes).length)
    (events : List ProcEvent) (fuel : Nat) (enough : length ≤ front.length + fuel) :
    connector.turns order length (fuel + 1) front.length events =
      .done (.ok ()) (events ++ messages.filterMap fun message => message.content.reported) := by
  have header : NLMSG_HEADER_SIZE = 16 := rfl
  have limit : length ≤ connector.buffer.length := by
    rw [ends, stands, List.length_append, List.length_append]
    omega
  induction messages generalizing front events fuel with
  | nil =>
      rw [List.flatMap_nil, List.length_nil] at ends
      have noHeader : ¬Headed order connector length front.length := by
        intro headed
        have inside := headed.inside
        omega
      rw [List.filterMap_nil, List.append_nil]
      exact turns_ended allocated limit (by omega) (fun headed => absurd headed noHeader)
        (fun headed => absurd headed noHeader) fuel
  | cons message messages ih =>
      rw [List.flatMap_cons, List.append_assoc] at stands
      rw [List.flatMap_cons, List.length_append] at ends
      have size := length_bytes message
      have ahead := le_aligned (NLMSG_HEADER_SIZE + message.content.payload.length)
      have found := (found_at stands rfl).1
      have headed : Headed order connector length front.length := by
        constructor
        · omega
        · rw [found]
          omega
      rw [turns_complete allocated limit headed (by rw [found]; omega), turnAt_message stands rfl]
      cases fuel with
      | zero => omega
      | succ fuel =>
          have moved : front.length + message.bytes.length = (front ++ message.bytes).length := by
            rw [List.length_append]
          rw [← List.append_assoc] at stands
          dsimp only
          rw [moved, ih (front ++ message.bytes) stands (by rw [← moved]; omega) _ fuel
            (by rw [← moved]; omega), List.filterMap_cons]
          cases message.content.reported <;> simp

end Batches

section Totality

variable [Usize] {order : Order} {connector : Connector} {length : Nat} {events : List ProcEvent}

/-- Decoding comes to an end, and all that it reads is there. -/
def Terminates (order : Order) (connector : Connector) (length : Nat) (events : List ProcEvent) :
    Prop :=
  ∃ result after, ∀ fuel, length < fuel →
    connector.decodeWithin order length fuel events = .done result after

/-- If what has been received is a batch of messages, then their events are pushed, in order. -/
def Exact (order : Order) (connector : Connector) (length : Nat) (events : List ProcEvent) : Prop :=
  ∀ (messages : List (Message order)) (rest : List UInt8),
    connector.buffer = messages.flatMap Message.bytes ++ rest →
      length = (messages.flatMap Message.bytes).length →
        ∀ fuel, length < fuel → connector.decodeWithin order length fuel events =
          .done (.ok ()) (events ++ messages.filterMap fun message => message.content.reported)

/-- No header that decoding comes to declares a length which wraps. -/
def Straight (order : Order) (connector : Connector) (length : Nat) : Prop :=
  ∀ place, Reaches order connector (min length connector.buffer.length) 0 place →
    Headed order connector (min length connector.buffer.length) place →
      ¬Wraps order connector place

theorem exact_decode (allocated : 2 * connector.buffer.length < count) :
    Exact order connector length events := by
  intro messages rest stands size fuel enough
  have inside : length ≤ connector.buffer.length := by
    rw [stands, List.length_append]
    omega
  cases fuel with
  | zero => omega
  | succ fuel =>
      rw [Connector.decodeWithin, Nat.min_eq_left inside]
      refine turns_messages allocated messages [] rest stands ?_ events fuel ?_
      · rw [size, List.length_nil, Nat.zero_add]
      · rw [List.length_nil]
        omega

/-- Decoding is total and exact, for a buffer that can be allocated, exactly where no length wraps
that it comes to. -/
theorem decode_total_exact_iff (allocated : 2 * connector.buffer.length < count) :
    Terminates order connector length events ∧ Exact order connector length events ↔
      Straight order connector length := by
  have limit : min length connector.buffer.length ≤ connector.buffer.length := Nat.min_le_right _ _
  constructor
  · rintro ⟨⟨result, after, done⟩, _⟩ place reaches headed wraps
    rcases turns_outOfRange allocated limit reaches headed wraps events with ⟨least, out⟩
    have ended := done (least + length + 1) (by omega)
    rw [Connector.decodeWithin, out (least + length) (by omega)] at ended
    cases ended
  · intro straight
    refine ⟨?_, exact_decode allocated⟩
    rcases turns_done allocated limit 0 (Nat.zero_le _) straight events with ⟨result, after, done⟩
    refine ⟨result, after, ?_⟩
    intro fuel enough
    cases fuel with
    | zero => omega
    | succ fuel => exact done fuel (by omega)

/-- In a 64-bit build no length wraps. -/
theorem straight_of_eight (wide : Usize.bytes = 8)
    (allocated : 2 * connector.buffer.length < count) : Straight order connector length := by
  intro place _ headed
  have inside := headed.inside
  have small := @readU32_lt order (headerAt connector place) 0
  have large : count = 2 ^ 64 := by
    rw [count, wide]
    rfl
  rw [Wraps, messageLengthAt]
  omega

end Totality

/-- Decoding is total and exact in every build and for every buffer. -/
def DecodingSound : Prop :=
  ∀ [Usize] (order : Order) (connector : Connector) (length : Nat) (events : List ProcEvent),
    2 * connector.buffer.length < count →
      Terminates order connector length events ∧ Exact order connector length events

/-- The buffer of a connector with 32 bytes received: a message without payload, and a header with
a length that ends where the first message begins. -/
def connectorA : Connector where
  buffer := little 4 16 ++ little 2 1 ++ List.replicate 10 0 ++ little 4 0xFFFFFFF0 ++
    List.replicate 12 0 ++ List.replicate 4064 0

theorem wrapped_length_out_of_range : ¬DecodingSound := by
  intro sound
  rcases (@sound .four .little connectorA 32 [] (by decide +kernel)).1 with ⟨result, after, done⟩
  have out : @Connector.decodeWithin .four .little connectorA 32 33 [] = .outOfRange := by
    decide +kernel
  rw [done 33 (by decide)] at out
  cases out

theorem length_fields (report : Report) :
    (report.fields .little).length = 0 ∨ (report.fields .little).length = 8 ∨
      (report.fields .little).length = 16 := by
  cases report <;> simp [Report.fields]

theorem small_bodyA (report : Report) :
    PROC_EVENT_HEADER_SIZE + ((report.fields .little).length + ([] : List UInt8).length) < 2 ^ 16 := by
  have sizes := length_fields report
  rw [PROC_EVENT_HEADER_SIZE, List.length_nil]
  omega

/-- A report as the kernel sends it, with nothing else in the message. -/
def eventA (report : Report) : EventMessage .little where
  address := .replicate 16 0
  flags := .replicate 2 0
  stamp := .replicate 12 0
  report := report
  union := []
  trailer := []
  small := small_bodyA report

theorem length_payloadA (report : Report) :
    (eventA report).payload.length = 36 + (report.fields .little).length := by
  simp [EventMessage.payload, eventA]
  omega

theorem small_messageA (report : Report) :
    NLMSG_HEADER_SIZE + (Content.event (eventA report)).payload.length < 2 ^ 32 := by
  have sizes := length_fields report
  rw [Content.payload, length_payloadA, NLMSG_HEADER_SIZE]
  omega

theorem padded_messageA (report : Report) :
    NLMSG_HEADER_SIZE + (Content.event (eventA report)).payload.length + ([] : List UInt8).length =
      aligned (NLMSG_HEADER_SIZE + (Content.event (eventA report)).payload.length) := by
  have sizes := length_fields report
  rw [Content.payload, length_payloadA, NLMSG_HEADER_SIZE, List.length_nil, aligned]
  omega

def messageA (report : Report) : Message .little where
  flags := .replicate 10 0
  content := .event (eventA report)
  padding := []
  small := small_messageA report
  padded := padded_messageA report

/-- A process executes a program and forks. -/
def batchA : List (Message .little) :=
  [messageA (.exec 7 7), messageA (.fork 7 7 8 8)]

/-- The buffer of a connector that has received both messages at once. -/
def connectorB : Connector where
  buffer := batchA.flatMap Message.bytes ++ List.replicate 3968 0

theorem decode_total_exact_batch : @Terminates .eight .little connectorB 128 [] ∧
    @Connector.decodeWithin .eight .little connectorB 128 129 [] =
      .done (.ok ()) [.exec 7, .fork 7 8] := by
  have sound : @Terminates .eight .little connectorB 128 [] ∧
      @Exact .eight .little connectorB 128 [] :=
    (@decode_total_exact_iff .eight .little connectorB 128 [] (by decide +kernel)).mpr
      (@straight_of_eight .eight .little connectorB 128 rfl (by decide +kernel))
  have length : 128 = (batchA.flatMap Message.bytes).length := by decide +kernel
  exact ⟨sound.1, sound.2 batchA _ rfl length 129 (by decide)⟩

end Netlink

end Znn.Injector
