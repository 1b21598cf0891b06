import Znn.Bytes.Framing
import Znn.Bytes.Utf8
import Znn.Injector.Tracefs

/-!
# Reading the trace pipe

The kernel's lines come out of a pipe in pieces that end anywhere. `TracefsTracker.drain` appends
each piece to a tail, takes the complete lines off its front and parses them; a tail that has
grown too long without a line feed is thrown away.
-/

namespace Znn.Injector

open Bytes Tracefs

namespace TracefsTracker

def MAX_TAIL_SIZE : Nat := 2 ^ 16

def LINE_FEED : UInt8 := 10

/-- What a read of the pipe returns. -/
inductive PipeRead where
  | read (bytes : List UInt8)
  | wouldBlock
  | interrupted
  | failed
deriving DecidableEq

/-- The loop of `emit_lines`: where the line that it is in begins, and the events so far. -/
structure Scan where
  lineStart : Nat
  events : List KernelEvent

def Scan.turn (tail : List UInt8) (scan : Scan) : UInt8 × Nat → Scan
  | (byte, index) =>
      if byte ≠ LINE_FEED then
        scan
      else
        let line := lossy ((tail.drop scan.lineStart).take (index - scan.lineStart))
        { lineStart := index + 1, events := scan.events ++ (parseLine line).toList }

end TracefsTracker

structure TracefsTracker where
  tail : List UInt8 := []
  reportedError : Bool := false

namespace TracefsTracker

/-- `emit_lines`: the tracker and the events afterwards. -/
def emitLines (tracker : TracefsTracker) (events : List KernelEvent) :
    TracefsTracker × List KernelEvent :=
  let scan := tracker.tail.zipIdx.foldl (Scan.turn tracker.tail) { lineStart := 0, events := events }
  let tail := tracker.tail.drop scan.lineStart
  ({ tracker with tail := if tail.length > MAX_TAIL_SIZE then [] else tail }, scan.events)

/-- `drain`, with what the reads of the pipe return; when nothing is left a read would block. -/
def drain (tracker : TracefsTracker) :
    List PipeRead → List KernelEvent → TracefsTracker × List KernelEvent
  | [], events | .wouldBlock :: _, events | .read [] :: _, events => (tracker, events)
  | .read (byte :: bytes) :: rest, events =>
      let (tracker, events) :=
        emitLines { tracker with tail := tracker.tail ++ byte :: bytes } events
      drain tracker rest events
  | .interrupted :: rest, events => drain tracker rest events
  | .failed :: _, events => ({ tracker with reportedError := true }, events)

/-- One drain after another. -/
def drainAll (drains : List (List PipeRead)) (tracker : TracefsTracker)
    (events : List KernelEvent) : TracefsTracker × List KernelEvent :=
  drains.foldl (fun state reads => state.1.drain reads state.2) (tracker, events)

/-- The bytes that a drain takes out of the pipe. -/
def bytesOf : List PipeRead → List UInt8
  | [] | .wouldBlock :: _ | .read [] :: _ | .failed :: _ => []
  | .read (byte :: bytes) :: rest => byte :: bytes ++ bytesOf rest
  | .interrupted :: rest => bytesOf rest

/-- The events of a stream, from its complete lines. -/
def eventsOf (stream : List UInt8) : List KernelEvent :=
  (Framing.completeLines LINE_FEED stream).filterMap fun line => parseLine (lossy line)

section Scanning

variable {tracker : TracefsTracker} {events : List KernelEvent}

/-- The scan of a text, from a place where the line it is in has no line feed yet. -/
theorem foldl_turn {scan : Scan} (before after : List UInt8)
    (started : scan.lineStart ≤ before.length)
    (within : LINE_FEED ∉ before.drop scan.lineStart) :
    let scanned := (after.zipIdx before.length).foldl (Scan.turn (before ++ after)) scan
    scanned.events = scan.events ++ eventsOf (before.drop scan.lineStart ++ after) ∧
      (before ++ after).drop scanned.lineStart =
        Framing.lastLine LINE_FEED (before.drop scan.lineStart ++ after) := by
  induction after generalizing before scan with
  | nil =>
      rcases Framing.completeLines_of_not_mem within with ⟨none, last⟩
      simp [eventsOf, none, last]
  | cons byte after ih =>
      have longer : before ++ byte :: after = (before ++ [byte]) ++ after := by simp
      have length : (before ++ [byte]).length = before.length + 1 := by simp
      rw [List.zipIdx_cons, List.foldl_cons, longer, ← length]
      by_cases ends : byte = LINE_FEED
      · -- The line that has been scanned is parsed, and the next one begins behind it.
        have line : ((before ++ byte :: after).drop scan.lineStart).take
            (before.length - scan.lineStart) = before.drop scan.lineStart := by
          rw [List.drop_append_of_le_length started, List.take_append_of_le_length (by simp),
            List.take_of_length_le (by simp)]
        have nothing : (before ++ [byte]).drop (before.length + 1) = [] := by simp
        rcases @Framing.completeLines_append_cons _ _ _ _ after within with ⟨complete, last⟩
        rw [Scan.turn, if_neg (not_not_intro ends), ← longer, line, longer]
        have next := @ih {
          lineStart := before.length + 1
          events := scan.events ++ (parseLine (lossy (before.drop scan.lineStart))).toList }
            (before ++ [byte]) (by simp) (by simp)
        rw [nothing, List.nil_append] at next
        rw [ends] at next ⊢
        rw [last, eventsOf, complete]
        refine ⟨next.1.trans ?_, next.2⟩
        rw [eventsOf, List.filterMap_cons]
        cases parseLine (lossy (before.drop scan.lineStart)) with
        | none => simp
        | some event => simp
      · have grown : (before ++ [byte]).drop scan.lineStart = before.drop scan.lineStart ++ [byte] :=
          List.drop_append_of_le_length started
        rw [Scan.turn, if_pos ends]
        have next := @ih scan (before ++ [byte]) (by simp; omega) (by
          rw [grown, List.mem_append, List.mem_singleton, not_or]
          exact ⟨within, fun same => ends same.symm⟩)
        have carried : before.drop scan.lineStart ++ [byte] ++ after =
            before.drop scan.lineStart ++ byte :: after := by simp
        rw [grown, carried] at next
        exact next

theorem emitLines_eq : tracker.emitLines events = (
    { tracker with tail :=
        if (Framing.lastLine LINE_FEED tracker.tail).length > MAX_TAIL_SIZE then
          []
        else
          Framing.lastLine LINE_FEED tracker.tail },
    events ++ eventsOf tracker.tail) := by
  have scanned := @foldl_turn { lineStart := 0, events := events } [] tracker.tail
    (Nat.le_refl _) List.not_mem_nil
  simp only [List.drop_nil, List.nil_append, List.length_nil] at scanned
  rw [emitLines, scanned.1, scanned.2]

end Scanning

section Chunks

variable {seen bytes stream : List UInt8} {before : List KernelEvent}
  {state : TracefsTracker × List KernelEvent}

/-- So much of the stream has been read: its complete lines are parsed and the last one is kept. -/
structure ReadUpTo (before : List KernelEvent) (seen : List UInt8)
    (state : TracefsTracker × List KernelEvent) : Prop where
  tail : state.1.tail = Framing.lastLine LINE_FEED seen
  events : state.2 = before ++ eventsOf seen

theorem eventsOf_append : eventsOf (seen ++ bytes) =
    eventsOf seen ++ eventsOf (Framing.lastLine LINE_FEED seen ++ bytes) := by
  have cut := (Framing.lines LINE_FEED).frames_append seen bytes
  exact (congrArg (List.filterMap _) cut).trans List.filterMap_append

theorem ReadUpTo.emitLines (upTo : ReadUpTo before seen state)
    (short : (Framing.lastLine LINE_FEED (seen ++ bytes)).length ≤ MAX_TAIL_SIZE) :
    ReadUpTo before (seen ++ bytes)
      (TracefsTracker.emitLines { state.1 with tail := state.1.tail ++ bytes } state.2) := by
  have carried : Framing.lastLine LINE_FEED (seen ++ bytes) =
      Framing.lastLine LINE_FEED (Framing.lastLine LINE_FEED seen ++ bytes) :=
    (Framing.lines LINE_FEED).rest_append seen bytes
  rw [emitLines_eq]
  constructor
  · dsimp only
    rw [upTo.tail, ← carried, if_neg (Nat.not_lt.mpr short)]
  · dsimp only
    rw [upTo.tail, upTo.events, @eventsOf_append seen, List.append_assoc]

theorem ReadUpTo.drain {later : List UInt8} (reads : List PipeRead)
    (upTo : ReadUpTo before seen state)
    (short : ∀ line ∈ (seen ++ (bytesOf reads ++ later)).splitOn LINE_FEED,
      line.length ≤ MAX_TAIL_SIZE) :
    ReadUpTo before (seen ++ bytesOf reads) (state.1.drain reads state.2) := by
  have stays : ReadUpTo before (seen ++ []) state := by
    rw [List.append_nil]
    exact upTo
  induction reads generalizing seen state with
  | nil => exact stays
  | cons read rest ih =>
      cases read with
      | wouldBlock => exact stays
      | failed => exact ⟨stays.tail, stays.events⟩
      | interrupted => exact ih upTo short stays
      | read piece =>
          cases piece with
          | nil => exact stays
          | cons byte piece =>
              rw [bytesOf, List.append_assoc, ← List.append_assoc] at short
              have next := upTo.emitLines (Framing.length_lastLine_le short)
              have ended := ih next short (by rw [List.append_nil]; exact next)
              rw [bytesOf, ← List.append_assoc]
              exact ended

theorem ReadUpTo.drainAll (drains : List (List PipeRead)) (upTo : ReadUpTo before seen state)
    (short : ∀ line ∈ (seen ++ drains.flatMap bytesOf).splitOn LINE_FEED,
      line.length ≤ MAX_TAIL_SIZE) :
    ReadUpTo before (seen ++ drains.flatMap bytesOf)
      (TracefsTracker.drainAll drains state.1 state.2) := by
  induction drains generalizing seen state with
  | nil =>
      rw [List.flatMap_nil, List.append_nil]
      exact upTo
  | cons reads rest ih =>
      rw [List.flatMap_cons] at short
      have next := upTo.drain reads short
      rw [List.flatMap_cons, ← List.append_assoc]
      rw [← List.append_assoc] at short
      exact ih next short

/-- However the stream is cut into reads, and the reads into drains: the events are those of its
complete lines, and what is kept is the line that has not ended. -/
theorem events_of_stream (short : ∀ line ∈ stream.splitOn LINE_FEED, line.length ≤ MAX_TAIL_SIZE)
    (drains : List (List PipeRead)) (cut : drains.flatMap bytesOf = stream)
    (before : List KernelEvent) :
    (drainAll drains {} before).2 = before ++ eventsOf stream ∧
      (drainAll drains {} before).1.tail = Framing.lastLine LINE_FEED stream := by
  have start : ReadUpTo before [] ({}, before) := ⟨rfl, (List.append_nil before).symm⟩
  rw [← cut] at short ⊢
  have ended := start.drainAll drains short
  exact ⟨ended.events, ended.tail⟩

/-- An exec whose path is not ASCII, and the beginning of a line after it. -/
def streamA : List UInt8 :=
  "sh-7 [002] .... 4.5: sched_process_exec: filename=/é pid=7 old_pid=7\nsh-8".toUTF8.toList

/-- The first read ends within a character and the second within a key. -/
theorem events_of_streamA :
    (drainAll [[.read (streamA.take 52), .interrupted, .read ((streamA.drop 52).take 4)],
        [.read (streamA.drop 56), .wouldBlock]] {} []).2.map KernelEvent.filename =
      [some "/é"] ∧
    (drainAll [[.read (streamA.take 52), .interrupted, .read ((streamA.drop 52).take 4)],
        [.read (streamA.drop 56), .wouldBlock]] {} []).1.tail = "sh-8".toUTF8.toList := by
  have read := @events_of_stream streamA (by decide +kernel)
    [[.read (streamA.take 52), .interrupted, .read ((streamA.drop 52).take 4)],
      [.read (streamA.drop 56), .wouldBlock]] (by decide +kernel) []
  rw [read.1, read.2]
  decide +kernel

end Chunks

end TracefsTracker

end Znn.Injector
