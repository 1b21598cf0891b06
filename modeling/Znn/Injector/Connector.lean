import Znn.Injector.Sys

/-!
# The proc connector

The kernel reports forks, execs and exits over a netlink socket. `Connector.drain` reads datagrams
until the socket would block, and decodes the messages of each into a buffer of events; a netlink
error among the messages or an error of the socket ends the reading. `ConnectorTracker.drain`
hands the events over, unless the reading ended so.
-/

namespace Znn.Injector

open Bytes Usize

namespace Netlink

def PROC_EVENT_FORK : Nat := 0x00000001
def PROC_EVENT_EXEC : Nat := 0x00000002
def PROC_EVENT_EXIT : Nat := 0x80000000

def NLMSG_ERROR : Nat := 2
def NLMSG_DONE : Nat := 3
def NLMSG_HEADER_SIZE : Nat := 16
def CN_MESSAGE_SIZE : Nat := 20
def PROC_EVENT_HEADER_SIZE : Nat := 16

inductive ProcEvent where
  | fork (parent child : Pid)
  | exec (pid : Pid)
  | exit (pid : Pid)
deriving DecidableEq, Repr

section Reading

variable (order : Order)

def readU16 (bytes : List UInt8) (offset : Nat) : Nat :=
  order.value ((bytes.drop offset).take 2)

def readU32 (bytes : List UInt8) (offset : Nat) : Nat :=
  order.value ((bytes.drop offset).take 4)

def readPid (bytes : List UInt8) (offset : Nat) : Pid :=
  (BitVec.ofNat 32 (readU32 order bytes offset)).toInt

/-- The event of a payload, if it is one that the injector looks at. -/
def payloadEvent (payload : List UInt8) : Option ProcEvent :=
  if payload.length < CN_MESSAGE_SIZE + PROC_EVENT_HEADER_SIZE then
    none
  else
    let bodyLength := readU16 order payload 16
    let body := payload.drop CN_MESSAGE_SIZE
    if bodyLength < PROC_EVENT_HEADER_SIZE ∨ bodyLength > body.length then
      none
    else
      let what := readU32 order body 0
      if what = PROC_EVENT_FORK ∧ body.length ≥ 32 then
        let parent := readPid order body 16
        let child := readPid order body 24
        let childTgid := readPid order body 28
        if child = childTgid ∧ childTgid > 1 then some (.fork parent childTgid) else none
      else if what = PROC_EVENT_EXEC ∧ body.length ≥ 24 then
        let pid := readPid order body 16
        let tgid := readPid order body 20
        if pid = tgid ∧ tgid > 1 then some (.exec tgid) else none
      else if what = PROC_EVENT_EXIT ∧ body.length ≥ 24 then
        let pid := readPid order body 16
        let tgid := readPid order body 20
        if pid = tgid ∧ tgid > 1 then some (.exit tgid) else none
      else
        none

/-- `decode_payload`. -/
def decodePayload (payload : List UInt8) (events : List ProcEvent) : List ProcEvent :=
  events ++ (payloadEvent order payload).toList

end Reading

/-- `(message_length + 3) & !3`. -/
def aligned (length : Nat) : Nat :=
  (length + 3) / 4 * 4

/-- What `recv` returns: the bytes of a datagram, as far as they fit into the buffer, or an
error. -/
inductive Recv where
  | received (bytes : List UInt8)
  | wouldBlock
  | interrupted
  | failed (code : Int32)
deriving DecidableEq

structure Connector where
  buffer : List UInt8 := List.replicate 4096 0

namespace Connector

variable [Usize] (order : Order)

/-- The loop of `decode` with the messages before `offset` decoded, and what it returns: an
error has the events of the messages before it. `none` where a slice is out of range, which a
message length that wraps the offset brings about. -/
def decodeFrom (connector : Connector) (length : Nat) :
    Nat → Nat → List ProcEvent → Option (Except Int32 Unit × List ProcEvent)
  | 0, _, events => some (.ok (), events)
  | fuel + 1, offset, events =>
      if offset + NLMSG_HEADER_SIZE ≤ length then
        let header := (connector.buffer.drop offset).take NLMSG_HEADER_SIZE
        let messageLength := readU32 order header 0
        let messageType := readU16 order header 4
        let stop := wrappingAdd offset messageLength
        if messageLength < NLMSG_HEADER_SIZE ∨ stop > length then
          some (.ok (), events)
        else if stop < offset + NLMSG_HEADER_SIZE then
          none
        else
          let start := offset + NLMSG_HEADER_SIZE
          let payload := (connector.buffer.drop start).take (stop - start)
          let next := decodeFrom connector length fuel (offset + aligned messageLength)
          if messageType = NLMSG_DONE then
            next (decodePayload order payload events)
          else if messageType = NLMSG_ERROR ∧ payload.length ≥ 4 then
            let error := Int32.ofNat (readU32 order payload 0)
            if error ≠ 0 then some (.error (-error), events) else next events
          else
            next events
      else
        some (.ok (), events)

/-- `decode`; each message moves the offset on, so the length bounds the turns. -/
def decode (connector : Connector) (length : Nat) (events : List ProcEvent) :
    Option (Except Int32 Unit × List ProcEvent) :=
  let length := min length connector.buffer.length
  connector.decodeFrom order length length 0 events

/-- The buffer after a `recv`. -/
def fill (connector : Connector) (bytes : List UInt8) : Connector where
  buffer := bytes.take connector.buffer.length ++ connector.buffer.drop bytes.length

/-- `Connector::drain`, with what `recv` returns, call by call. The socket does not block: when
nothing is left it says so. -/
def drain (connector : Connector) :
    List Recv → List ProcEvent → Option (Except Int32 Unit × Connector × List ProcEvent)
  | [], events | .wouldBlock :: _, events => some (.ok (), connector, events)
  | .received [] :: _, events => some (.ok (), connector, events)
  | .received (byte :: bytes) :: rest, events =>
      let connector := connector.fill (byte :: bytes)
      match connector.decode order (byte :: bytes).length events with
      | none => none
      | some (.ok (), events) => drain connector rest events
      | some (.error code, events) => some (.error code, connector, events)
  | .interrupted :: rest, events => drain connector rest events
  | .failed code :: _, events => some (.error code, connector, events)

end Connector

end Netlink

open Netlink

structure ConnectorTracker where
  connector : Connector := {}
  pending : List ProcEvent := []
  reportedError : Bool := false

namespace ConnectorTracker

/-- The kernel event of a connector event. -/
def eventOf : ProcEvent → KernelEvent
  | .fork parent child => { kind := .fork, pid := child, ppid := parent }
  | .exec pid => { kind := .exec, pid := pid }
  | .exit pid => { kind := .exit, pid := pid }

/-- `ConnectorTracker::drain`: the tracker and the output afterwards. -/
def drain [Usize] (order : Order) (tracker : ConnectorTracker) (results : List Recv)
    (events : List KernelEvent) : Option (ConnectorTracker × List KernelEvent) :=
  match tracker.connector.drain order results [] with
  | none => none
  | some (.error _, connector, pending) =>
      some ({ connector := connector, pending := pending, reportedError := true }, events)
  | some (.ok (), connector, pending) =>
      some ({ tracker with connector := connector, pending := pending },
        events ++ pending.map eventOf)

end ConnectorTracker

namespace Netlink

/-- What a message or a result of `recv` amounts to: an event, or something that ends the
reading. -/
inductive Item where
  | event (event : ProcEvent)
  | refused (code : Int32)
  | overrun
deriving DecidableEq

/-- How a reading ends. -/
inductive Ending where
  | quiet
  | error (code : Int32)
  | overrun
deriving DecidableEq

/-- The events before the first item that ends the reading. -/
def preceding : List Item → List ProcEvent
  | .event event :: rest => event :: preceding rest
  | _ => []

def ending : List Item → Ending
  | [] => .quiet
  | .event _ :: rest => ending rest
  | .refused code :: _ => .error code
  | .overrun :: _ => .overrun

/-- A reading of the items, with the events that came before them. -/
def consume (items : List Item) (events : List ProcEvent) :
    Option (Except Int32 Unit × List ProcEvent) :=
  match ending items with
  | .quiet => some (.ok (), events ++ preceding items)
  | .error code => some (.error code, events ++ preceding items)
  | .overrun => none

section Items

variable [Usize] (order : Order)

def messageItems (messageType : Nat) (payload : List UInt8) : List Item :=
  if messageType = NLMSG_DONE then
    (payloadEvent order payload).toList.map .event
  else if messageType = NLMSG_ERROR ∧ payload.length ≥ 4 then
    let error := Int32.ofNat (readU32 order payload 0)
    if error ≠ 0 then [.refused (-error)] else []
  else
    []

/-- The items of a datagram from an offset on. -/
def datagramItems (datagram : List UInt8) : Nat → Nat → List Item
  | 0, _ => []
  | fuel + 1, offset =>
      if offset + NLMSG_HEADER_SIZE ≤ datagram.length then
        let header := (datagram.drop offset).take NLMSG_HEADER_SIZE
        let messageLength := readU32 order header 0
        let stop := wrappingAdd offset messageLength
        if messageLength < NLMSG_HEADER_SIZE ∨ stop > datagram.length then
          []
        else if stop < offset + NLMSG_HEADER_SIZE then
          [.overrun]
        else
          let start := offset + NLMSG_HEADER_SIZE
          messageItems order (readU16 order header 4) ((datagram.drop start).take (stop - start)) ++
            datagramItems datagram fuel (offset + aligned messageLength)
      else
        []

/-- The items of what `recv` returns until nothing is left. -/
def items (capacity : Nat) : List Recv → List Item
  | [] | .wouldBlock :: _ | .received [] :: _ => []
  | .received (byte :: bytes) :: rest =>
      let datagram := (byte :: bytes).take capacity
      datagramItems order datagram datagram.length 0 ++ items capacity rest
  | .interrupted :: rest => items capacity rest
  | .failed code :: _ => [.refused code]

end Items

section Consuming

variable {first second : List Item} {events : List ProcEvent}

theorem ending_append (second : List Item) (quiet : ending first = .quiet) :
    ending (first ++ second) = ending second ∧
      preceding (first ++ second) = preceding first ++ preceding second := by
  induction first with
  | nil => exact ⟨rfl, rfl⟩
  | cons item rest ih =>
      cases item with
      | event event =>
          rcases ih quiet with ⟨sameEnding, samePreceding⟩
          exact ⟨sameEnding, congrArg (List.cons event) samePreceding⟩
      | refused code => cases quiet
      | overrun => cases quiet

theorem ending_append_of_ended (second : List Item) (ended : ending first ≠ .quiet) :
    ending (first ++ second) = ending first ∧ preceding (first ++ second) = preceding first := by
  induction first with
  | nil => exact absurd rfl ended
  | cons item rest ih =>
      cases item with
      | event event =>
          rcases ih ended with ⟨sameEnding, samePreceding⟩
          exact ⟨sameEnding, congrArg (List.cons event) samePreceding⟩
      | refused code => exact ⟨rfl, rfl⟩
      | overrun => exact ⟨rfl, rfl⟩

/-- A reading goes on where the first part of it ended quietly. -/
theorem consume_append :
    consume (first ++ second) events =
      match consume first events with
      | some (.ok (), events) => consume second events
      | ended => ended := by
  by_cases quiet : ending first = .quiet
  · rcases ending_append second quiet with ⟨sameEnding, samePreceding⟩
    rw [consume, sameEnding, samePreceding, ← List.append_assoc]
    simp only [consume, quiet]
  · rcases ending_append_of_ended second quiet with ⟨sameEnding, samePreceding⟩
    rw [consume, consume, sameEnding, samePreceding]
    cases isEnding : ending first with
    | quiet => exact absurd isEnding quiet
    | error code => rfl
    | overrun => rfl

end Consuming

section Decoding

variable [Usize] {order : Order} {datagram stale : List UInt8} {connector : Connector}

omit [Usize] in
theorem slice_append (stale : List UInt8) {offset length : Nat}
    (inside : offset + length ≤ datagram.length) :
    ((datagram ++ stale).drop offset).take length = (datagram.drop offset).take length := by
  rw [List.drop_append_of_le_length (by omega), List.take_append_of_le_length (by simp; omega)]

omit [Usize] in
/-- A message is decoded to what its items say. -/
theorem consume_messageItems (messageType : Nat) (payload : List UInt8) (rest : List Item)
    (events : List ProcEvent) :
    consume (messageItems order messageType payload ++ rest) events =
      if messageType = NLMSG_DONE then
        consume rest (decodePayload order payload events)
      else if messageType = NLMSG_ERROR ∧ payload.length ≥ 4 then
        let error := Int32.ofNat (readU32 order payload 0)
        if error ≠ 0 then some (.error (-error), events) else consume rest events
      else
        consume rest events := by
  rw [messageItems]
  split
  · rw [consume_append, decodePayload]
    cases payloadEvent order payload with
    | none => simp [consume, ending, preceding]
    | some event => simp [consume, ending, preceding]
  · split
    · dsimp only
      split
      · simp [consume, ending, preceding]
      · rfl
    · rfl

/-- `decode` consumes the items of the datagram that is at the front of the buffer. -/
theorem decodeFrom_eq (holds : connector.buffer = datagram ++ stale) (fuel offset : Nat)
    (events : List ProcEvent) :
    connector.decodeFrom order datagram.length fuel offset events =
      consume (datagramItems order datagram fuel offset) events := by
  induction fuel generalizing offset events with
  | zero => simp [Connector.decodeFrom, datagramItems, consume, ending, preceding]
  | succ fuel ih =>
      rw [Connector.decodeFrom, datagramItems, holds]
      split
      case isTrue inside =>
        have header := slice_append stale inside
        dsimp only
        rw [header]
        split
        · simp [consume, ending, preceding]
        case isFalse fits =>
          split
          · rfl
          case isFalse ordered =>
            rw [consume_messageItems, slice_append stale (by omega)]
            simp only [ih]
      case isFalse => simp [consume, ending, preceding]

omit [Usize] in
theorem length_fill (bytes : List UInt8) :
    (connector.fill bytes).buffer.length = connector.buffer.length := by
  simp [Connector.fill]
  omega

/-- `decode` consumes what the last `recv` has left in the buffer. -/
theorem decode_fill (bytes : List UInt8) (events : List ProcEvent) :
    (connector.fill bytes).decode order bytes.length events =
      consume (datagramItems order (bytes.take connector.buffer.length)
        (bytes.take connector.buffer.length).length 0) events := by
  have length : min bytes.length (connector.fill bytes).buffer.length =
      (bytes.take connector.buffer.length).length := by
    rw [length_fill, List.length_take, Nat.min_comm]
  rw [Connector.decode, length]
  exact decodeFrom_eq rfl _ 0 events

/-- `drain` consumes the items of what `recv` returns. -/
theorem drain_eq (results : List Recv) (connector : Connector) (events : List ProcEvent) :
    (connector.drain order results events).map (fun drained => (drained.1, drained.2.2)) =
      consume (items order connector.buffer.length results) events := by
  have nothing (events : List ProcEvent) : consume [] events = some (.ok (), events) := by
    simp [consume, ending, preceding]
  induction results generalizing connector events with
  | nil => exact (nothing events).symm
  | cons result rest ih =>
      cases result with
      | wouldBlock => exact (nothing events).symm
      | interrupted => exact ih connector events
      | failed code => simp [Connector.drain, items, consume, ending, preceding]
      | received bytes =>
          cases bytes with
          | nil => exact (nothing events).symm
          | cons byte bytes =>
              have filled := ih (connector.fill (byte :: bytes))
              rw [length_fill] at filled
              rw [items, consume_append, ← decode_fill, Connector.drain]
              split
              case h_1 overrun => rw [overrun]; rfl
              case h_2 decoded => rw [decoded]; exact filled _
              case h_3 refused => rw [refused]; rfl

end Decoding

end Netlink

namespace ConnectorTracker

section Delivery

variable [Usize] {order : Order} {tracker : ConnectorTracker} {results : List Recv}
  {events : List KernelEvent}

/-- What `recv` returns in a drain amounts to. -/
def itemsOf (order : Order) (tracker : ConnectorTracker) (results : List Recv) : List Item :=
  items order tracker.connector.buffer.length results

/-- Every event that comes before an error is pushed to the output, in its turn. -/
def Delivers (order : Order) (tracker : ConnectorTracker) (results : List Recv)
    (events : List KernelEvent) : Prop :=
  ∃ next, tracker.drain order results events =
    some (next, events ++ (preceding (itemsOf order tracker results)).map eventOf)

/-- The message of an exec of process 100. -/
def execMessageA : List UInt8 :=
  little 4 60 ++ little 2 NLMSG_DONE ++ List.replicate 10 0 ++
    (List.replicate 16 0 ++ little 2 24 ++ List.replicate 2 0) ++
    (little 4 PROC_EVENT_EXEC ++ List.replicate 12 0 ++ little 4 100 ++ little 4 100)

omit [Usize] in
/-- The overflow of the socket drops the exec that was read before it. -/
theorem exec_lost_on_overflow :
    ¬@Delivers .eight .little {} [.received execMessageA, .failed 105] [] := by
  rintro ⟨next, drained⟩
  have pushed : (@drain .eight .little {} [.received execMessageA, .failed 105] []).map Prod.snd =
      some [] := by
    decide +kernel
  have due : (@preceding (@itemsOf .eight .little {} [.received execMessageA, .failed 105])).map
      eventOf = [{ kind := .exec, pid := 100 }] := by
    decide +kernel
  rw [drained, due] at pushed
  cases pushed

/-- The events are delivered where no error ends the reading, or no event comes before it. -/
theorem delivers_iff :
    Delivers order tracker results events ↔
      ending (itemsOf order tracker results) = .quiet ∨
        (∃ code, ending (itemsOf order tracker results) = .error code) ∧
          preceding (itemsOf order tracker results) = [] := by
  have drained : (tracker.connector.drain order results []).map (fun drained =>
      (drained.1, drained.2.2)) = consume (itemsOf order tracker results) [] :=
    drain_eq results tracker.connector []
  rw [Delivers, drain]
  cases isEnding : ending (itemsOf order tracker results) with
  | quiet =>
      simp only [consume, isEnding, List.nil_append] at drained
      rcases Option.map_eq_some_iff.mp drained with ⟨⟨ended, connector, pending⟩, isDrained, same⟩
      cases same
      rw [isDrained]
      exact iff_of_true ⟨_, rfl⟩ (.inl rfl)
  | error code =>
      simp only [consume, isEnding, List.nil_append] at drained
      rcases Option.map_eq_some_iff.mp drained with ⟨⟨ended, connector, pending⟩, isDrained, same⟩
      cases same
      rw [isDrained]
      constructor
      · rintro ⟨next, same⟩
        have nothing := (Prod.mk.inj (Option.some.inj same)).2
        rw [List.self_eq_append_right, List.map_eq_nil_iff] at nothing
        exact .inr ⟨⟨code, rfl⟩, nothing⟩
      · rintro (⟨⟨⟩⟩ | ⟨_, nothing⟩)
        refine ⟨_, congrArg some (Prod.ext rfl ?_)⟩
        dsimp only
        rw [nothing, List.map_nil, List.append_nil]
  | overrun =>
      simp only [consume, isEnding] at drained
      rw [Option.map_eq_none_iff.mp drained]
      apply iff_of_false
      · rintro ⟨next, ⟨⟩⟩
      · rintro (⟨⟨⟩⟩ | ⟨⟨code, ⟨⟩⟩, _⟩)

end Delivery

end ConnectorTracker

end Znn.Injector
