import Znn.Injector.Kpm

/-!
# Delivery of exec records

Executions and drains of the channel, one after another. Every exec is reported once and in its
turn, unless the ring has forgotten it by the time it is asked for.
-/

namespace Znn.Injector

open Interaction Znn.Kpm

namespace KpmTracker

/-- The event of the execution with a number. -/
def eventFor (tasks : Nat → Task) (seq : Nat) : KernelEvent :=
  eventOf (tasks seq).pid.toInt (tasks seq).ppid.toInt

/-- The cursor goes from one number to another and reports some of those between: in order, and
all that have a process and that the ring still holds. -/
structure Passes (ring : Ring) (tasks : Nat → Task) (since upTo : Nat) (reported : List Nat) :
    Prop where
  forward : since ≤ upTo
  written : upTo ≤ ring.written
  ordered : reported.Pairwise (· < ·)
  between : ∀ seq ∈ reported, since < seq ∧ seq ≤ upTo
  complete : ∀ seq, since < seq → seq ≤ upTo → 0 < (tasks seq).pid.toInt →
    seq ∈ reported ∨ seq + ZNN_RING_CAPACITY ≤ ring.written

section Rounds

variable {ring : Ring} {tasks : Nat → Task} {since upTo last first taken : Nat}
  {reported more : List Nat} {copied : Nat → Nat → Bool} {callerIsRoot : Bool}
  {drained : Drained} {bytes : List UInt8} {lines : List Line}

theorem Passes.refl (written : since ≤ ring.written) : Passes ring tasks since since [] where
  forward := Nat.le_refl _
  written := written
  ordered := List.Pairwise.nil
  between _ member := by cases member
  complete seq above below := absurd above (Nat.not_lt.mpr below)

theorem Passes.trans (one : Passes ring tasks since upTo reported)
    (two : Passes ring tasks upTo last more) : Passes ring tasks since last (reported ++ more) where
  forward := Nat.le_trans one.forward two.forward
  written := two.written
  ordered := by
    rw [List.pairwise_append]
    refine ⟨one.ordered, two.ordered, ?_⟩
    intro seq early other late
    exact Nat.lt_of_le_of_lt (one.between seq early).2 (two.between other late).1
  between := by
    intro seq member
    rcases List.mem_append.mp member with early | late
    · exact ⟨(one.between seq early).1, Nat.le_trans (one.between seq early).2 two.forward⟩
    · exact ⟨Nat.lt_of_le_of_lt one.forward (two.between seq late).1, (two.between seq late).2⟩
  complete := by
    intro seq above below living
    by_cases early : seq ≤ upTo
    · rcases one.complete seq above early living with found | forgotten
      · exact .inl (List.mem_append_left _ found)
      · exact .inr forgotten
    · rcases two.complete seq (Nat.lt_of_not_le early) below living with found | forgotten
      · exact .inl (List.mem_append_right _ found)
      · exact .inr forgotten

/-- The numbers of a read, from the first that it is about. -/
theorem passes_range (nonempty : 0 < taken)
    (within : firstOf ring since + taken ≤ ring.written + 1) :
    Passes ring tasks since (firstOf ring since + taken - 1)
      ((List.range' (firstOf ring since) taken).filter fun seq => 0 < (tasks seq).pid.toInt) := by
  have capacity : ZNN_RING_CAPACITY = 64 := rfl
  have first : since + 1 ≤ firstOf ring since := Nat.le_max_left _ _
  constructor
  · omega
  · omega
  · exact (List.pairwise_lt_range' 1 (by decide)).filter _
  · intro seq member
    have range := List.mem_range'_1.mp (List.mem_filter.mp member).1
    omega
  · intro seq above below living
    by_cases old : seq < firstOf ring since
    · right
      rw [firstOf] at old
      omega
    · left
      rw [List.mem_filter]
      exact ⟨List.mem_range'_1.mpr (by omega), by simpa using living⟩

/-- The text of a line, without the line feed. -/
def textOf (line : Line) : List Char :=
  recordText line.seq line.task.pid line.task.tgid line.task.ppid

/-- What the channel has put into the buffer is read line by line. -/
theorem lines_bytesOf (words : ∀ line ∈ lines, line.seq < 2 ^ 64) :
    Targets.lines (Bytes.lossy (bytesOf lines)) =
      lines.map fun line => String.ofList (textOf line) := by
  have bytes : bytesOf lines = ((lines.map textOf).flatMap fun piece => piece ++ ['\n']).map
      fun symbol => UInt8.ofNat symbol.toNat := by
    rw [bytesOf, List.flatMap_map, List.map_flatMap]
    apply List.flatMap_congr
    intro line member
    rw [Line.bytes, formatExecRecord_eq (words line member)]
    rfl
  have clear : ∀ piece ∈ lines.map textOf, '\n' ∉ piece ∧ '\r' ∉ piece := by
    intro piece member
    rcases List.mem_map.mp member with ⟨line, _, rfl⟩
    exact recordText_clear
  have ascii : ∀ symbol ∈ (lines.map textOf).flatMap fun piece => piece ++ ['\n'],
      symbol.toNat < 128 := by
    intro symbol member
    rcases List.mem_flatMap.mp member with ⟨piece, inLines, inPiece⟩
    rcases List.mem_map.mp inLines with ⟨line, _, rfl⟩
    rcases List.mem_append.mp inPiece with inText | lineFeed
    · exact recordText_ascii inText
    · rw [List.mem_singleton] at lineFeed
      rw [lineFeed]
      decide
  rw [bytes, Bytes.lossy_ascii ascii, lines_joined clear, List.map_map]
  rfl

/-- Lines with consecutive numbers move the cursor to the last of them. -/
theorem foldl_takeLine (words : first + taken ≤ 2 ^ 64) :
    ((List.range' first taken).map fun seq =>
        String.ofList (textOf ⟨seq, tasks seq⟩)).foldl Drained.takeLine drained = {
      lastSeq := if taken = 0 then drained.lastSeq else max drained.lastSeq (first + taken - 1)
      events := drained.events ++ ((List.range' first taken).filter fun seq =>
        0 < (tasks seq).pid.toInt).map (eventFor tasks) } := by
  induction taken generalizing first drained with
  | zero => simp
  | succ taken ih =>
      have word : first < 2 ^ 64 := by omega
      have last : ∀ low, (if taken = 0 then max low first else
          max (max low first) (first + 1 + taken - 1)) = max low (first + (taken + 1) - 1) := by
        intro low
        split <;> omega
      rw [List.range'_succ, List.map_cons, List.foldl_cons, textOf, takeLine_recordText word,
        ih (by omega), List.filter_cons, if_neg (Nat.succ_ne_zero taken)]
      by_cases living : 0 < (tasks first).pid.toInt
      · have positive : ¬(tasks first).pid.toInt ≤ 0 := by omega
        simp only [living, positive, if_false, decide_true, if_true, List.map_cons,
          List.append_assoc, List.singleton_append, last]
        rfl
      · have none : (tasks first).pid.toInt ≤ 0 := by omega
        simp only [living, none, if_true, decide_false, Bool.false_eq_true, if_false, last]

/-- What an answer of the channel consists of. -/
theorem readRecords_eq (answered : readRecords copied callerIsRoot ring since = some bytes) :
    callerIsRoot = true ∧ ∃ lines, bytes = bytesOf lines ∧
      writeRecords copied ring MAX_PAYLOAD since = some lines := by
  rw [readRecords, Option.map_eq_some_iff] at answered
  rcases answered with ⟨lines, answered, rfl⟩
  rw [channelBefore, if_neg (by decide)] at answered
  cases callerIsRoot with
  | false => cases answered
  | true => exact ⟨rfl, lines, rfl, answered⟩

/-- What the tracker does with an answer that is not empty. -/
theorem takeAnswer (recent : Recent ring tasks)
    (answered : readRecords copied callerIsRoot ring drained.lastSeq = some bytes)
    (nonempty : bytes.length ≠ 0) :
    ∃ upTo reported, Passes ring tasks drained.lastSeq upTo reported ∧ drained.lastSeq < upTo ∧
      (Targets.lines (Bytes.lossy (bytes.take MAX_PAYLOAD))).foldl Drained.takeLine drained =
        { lastSeq := upTo, events := drained.events ++ reported.map (eventFor tasks) } := by
  rcases readRecords_eq answered with ⟨_, lines, rfl, emitted⟩
  rcases writeRecords_consecutive emitted with ⟨taken, rfl, within, length⟩
  have first : drained.lastSeq + 1 ≤ firstOf ring drained.lastSeq := Nat.le_max_left _ _
  have some : taken ≠ 0 := by
    rintro rfl
    exact nonempty rfl
  have limit : firstOf ring drained.lastSeq + taken ≤ ring.written + 1 := by omega
  have recorded : (List.range' (firstOf ring drained.lastSeq) taken).map ring.lineAt =
      (List.range' (firstOf ring drained.lastSeq) taken).map fun seq => ⟨seq, tasks seq⟩ := by
    apply List.map_congr_left
    intro seq member
    have range := List.mem_range'_1.mp member
    exact recent.lineAt range.1 (by omega)
  have words : ∀ line ∈ (List.range' (firstOf ring drained.lastSeq) taken).map
      fun seq => (⟨seq, tasks seq⟩ : Line), line.seq < 2 ^ 64 := by
    intro line member
    rcases List.mem_map.mp member with ⟨seq, inRange, rfl⟩
    have range := List.mem_range'_1.mp inRange
    have word := recent.word
    dsimp only
    omega
  refine ⟨_, _, passes_range (Nat.pos_of_ne_zero some) limit, by omega, ?_⟩
  rw [List.take_of_length_le length, recorded, lines_bytesOf words, List.map_map]
  have word := recent.word
  have moved := @foldl_takeLine tasks (firstOf ring drained.lastSeq) taken drained (by omega)
  rw [if_neg some] at moved
  have forward : max drained.lastSeq (firstOf ring drained.lastSeq + taken - 1) =
      firstOf ring drained.lastSeq + taken - 1 := by omega
  rw [forward] at moved
  exact moved

/-- A drain passes over numbers, round by round. -/
theorem drain_passes (recent : Recent ring tasks) (rounds : Nat)
    (written : drained.lastSeq ≤ ring.written) :
    ∃ reported, Passes ring tasks drained.lastSeq
        (drain (readRecords copied callerIsRoot ring) rounds drained).lastSeq reported ∧
      (drain (readRecords copied callerIsRoot ring) rounds drained).events =
        drained.events ++ reported.map (eventFor tasks) := by
  induction rounds generalizing drained with
  | zero => exact ⟨[], Passes.refl written, by simp [drain]⟩
  | succ rounds ih =>
      rw [drain]
      cases answered : readRecords copied callerIsRoot ring drained.lastSeq with
      | none => exact ⟨[], Passes.refl written, by simp⟩
      | some bytes =>
          dsimp only
          by_cases empty : bytes.length = 0
          · rw [if_pos empty]
            exact ⟨[], Passes.refl written, by simp⟩
          · rw [if_neg empty]
            rcases takeAnswer recent answered empty with ⟨upTo, reported, passes, _, after⟩
            rw [after]
            split
            · exact ⟨reported, passes, rfl⟩
            · rcases @ih ⟨upTo, drained.events ++ reported.map (eventFor tasks)⟩ passes.written with
                ⟨more, rest, events⟩
              refine ⟨reported ++ more, passes.trans rest, ?_⟩
              rw [events, List.map_append, List.append_assoc]

/-- If a record is unread and the channel can be read, a drain goes forward. -/
theorem drain_advances (recent : Recent ring tasks) (unread : drained.lastSeq < ring.written)
    (copies : ∀ offset length, offset + length ≤ MAX_PAYLOAD → copied offset length = true)
    (root : callerIsRoot = true) (rounds : Nat) :
    drained.lastSeq <
      (drain (readRecords copied callerIsRoot ring) (rounds + 1) drained).lastSeq := by
  have answered : (writeRecords copied ring MAX_PAYLOAD drained.lastSeq).isSome = true := by
    rw [writeRecords, start_eq unread]
    exact emit_isSome copies
  rcases Option.isSome_iff_exists.mp answered with ⟨lines, emitted⟩
  have reads : readRecords copied callerIsRoot ring drained.lastSeq = some (bytesOf lines) := by
    rw [readRecords, channelBefore, if_neg (by decide), root]
    exact congrArg (Option.map bytesOf) emitted
  have some := writeRecords_nonempty emitted unread recent.word (by decide)
  have nonempty : (bytesOf lines).length ≠ 0 := by
    cases lines with
    | nil => exact absurd rfl some
    | cons line rest =>
        rcases writeRecords_consecutive emitted with ⟨taken, same, within, _⟩
        have member : line ∈ (List.range' (firstOf ring drained.lastSeq) taken).map ring.lineAt := by
          rw [← same]
          exact List.mem_cons_self
        rcases List.mem_map.mp member with ⟨seq, inRange, rfl⟩
        have range := List.mem_range'_1.mp inRange
        have word : (ring.lineAt seq).seq < 2 ^ 64 := by
          have bound := recent.word
          rw [Ring.lineAt]
          dsimp only
          omega
        have length := (length_bytes_le word).1
        rw [bytesOf, List.flatMap_cons, List.length_append]
        omega
  rcases takeAnswer recent reads nonempty with ⟨upTo, reported, passes, forward, after⟩
  rw [drain, reads]
  dsimp only
  rw [if_neg nonempty, after]
  split
  · exact forward
  · rcases @drain_passes _ _ copied callerIsRoot
      ⟨upTo, drained.events ++ reported.map (eventFor tasks)⟩ recent rounds passes.written with
        ⟨_, rest, _⟩
    exact Nat.lt_of_lt_of_le forward rest.forward

end Rounds

section Runs

/-- The ring and the tracker that reads it. For statements it is remembered which task every
execution was of. -/
structure Delivery where
  ring : Ring := {}
  sinceSeq : Nat := 0
  events : List KernelEvent := []
  tasks : Nat → Task := fun _ => {}

inductive Move where
  | exec (task : Task)
  | drain

variable (copied : Nat → Nat → Bool) (callerIsRoot : Bool)

/-- An execution; the counter is never reset. -/
def Delivery.exec (s : Delivery) (task : Task) : Option Delivery :=
  if s.ring.written + 1 < 2 ^ 64 then
    some { s with
      ring := s.ring.noteExec task
      tasks := Function.update s.tasks (s.ring.written + 1) task }
  else
    none

def Delivery.drain (s : Delivery) : Delivery :=
  let drained := KpmTracker.drain (readRecords copied callerIsRoot s.ring) MAX_ROUNDS
    { lastSeq := s.sinceSeq, events := s.events }
  { s with sinceSeq := drained.lastSeq, events := drained.events }

def Delivery.step (s : Delivery) : Move → Option Delivery
  | .exec task => s.exec task
  | .drain => some (s.drain copied callerIsRoot)

/-- Executions and drains, one after another, once the tracker has been started. -/
def delivery : System Delivery Move where
  Initial s := s = {} ∧ start copied callerIsRoot s.ring = some s.sinceSeq
  Step s move s' := s.step copied callerIsRoot move = some s'

/-- The events pushed so far belong to executions in the order of their numbers. -/
def Delivery.InOrder (s : Delivery) : Prop :=
  ∃ reported : List Nat, reported.Pairwise (· < ·) ∧
    (∀ seq ∈ reported, 0 < seq ∧ seq ≤ s.ring.written) ∧
    s.events = reported.map (eventFor s.tasks)

/-- What a drain passes over without reporting it had been overwritten before. -/
def Delivery.LostOnlyOverwritten (s s' : Delivery) : Prop :=
  ∃ reported : List Nat, s'.events = s.events ++ reported.map (eventFor s.tasks) ∧
    ∀ seq, s.sinceSeq < seq → seq ≤ s'.sinceSeq → 0 < (s.tasks seq).pid.toInt →
      seq ∈ reported ∨ seq + ZNN_RING_CAPACITY ≤ s.ring.written

def Delivery.Advances (s s' : Delivery) : Prop :=
  s.sinceSeq < s.ring.written → s.sinceSeq < s'.sinceSeq

/-- The ring holds the latest executions and the tracker has not seen more than there are. -/
structure Delivery.Good (s : Delivery) : Prop where
  root : callerIsRoot = true
  recent : Recent s.ring s.tasks
  written : s.sinceSeq ≤ s.ring.written
  inOrder : ∃ reported : List Nat, reported.Pairwise (· < ·) ∧
    (∀ seq ∈ reported, 0 < seq ∧ seq ≤ s.sinceSeq) ∧ s.events = reported.map (eventFor s.tasks)

variable {copied callerIsRoot} {s s' : Delivery}

theorem good_exec {task : Task} (good : s.Good callerIsRoot) (stepped : s.exec task = some s') :
    s'.Good callerIsRoot := by
  rw [Delivery.exec, Option.ite_none_right_eq_some] at stepped
  rcases stepped with ⟨word, ⟨⟩⟩
  have next : (s.ring.noteExec task).written = s.ring.written + 1 := Nat.mod_eq_of_lt word
  rcases good.inOrder with ⟨reported, ordered, seen, events⟩
  refine ⟨good.root, recent_noteExec good.recent word, ?_, reported, ordered, seen, ?_⟩
  · exact Nat.le_trans good.written (by rw [next]; exact Nat.le_succ _)
  · dsimp only
    rw [events]
    apply List.map_congr_left
    intro seq member
    have old : seq ≠ s.ring.written + 1 := by
      have bound := (seen seq member).2
      have written := good.written
      omega
    rw [eventFor, eventFor, Function.update_of_ne old]

theorem good_drain (good : s.Good callerIsRoot) :
    (s.drain copied callerIsRoot).Good callerIsRoot ∧
      s.LostOnlyOverwritten (s.drain copied callerIsRoot) := by
  rcases @drain_passes _ _ copied callerIsRoot { lastSeq := s.sinceSeq, events := s.events }
    good.recent MAX_ROUNDS good.written with ⟨more, passes, pushed⟩
  rcases good.inOrder with ⟨reported, ordered, seen, events⟩
  constructor
  · refine ⟨good.root, good.recent, passes.written, reported ++ more, ?_, ?_, ?_⟩
    · rw [List.pairwise_append]
      refine ⟨ordered, passes.ordered, ?_⟩
      intro seq early other late
      exact Nat.lt_of_le_of_lt (seen seq early).2 (passes.between other late).1
    · intro seq member
      rcases List.mem_append.mp member with early | late
      · exact ⟨(seen seq early).1, Nat.le_trans (seen seq early).2 passes.forward⟩
      · exact ⟨Nat.lt_of_le_of_lt (Nat.zero_le _) (passes.between seq late).1,
          (passes.between seq late).2⟩
    · rw [Delivery.drain, pushed, List.map_append, events]
  · exact ⟨more, pushed, passes.complete⟩

theorem good_of_reachable (reached : (delivery copied callerIsRoot).Reachable s) :
    s.Good callerIsRoot := by
  induction reached with
  | initial initial =>
      rcases initial with ⟨rfl, started⟩
      rw [start, Option.map_eq_some_iff] at started
      rcases started with ⟨bytes, answered, _⟩
      refine ⟨(readRecords_eq answered).1, ⟨by decide, ?_⟩, Nat.le_refl _, [], by simp⟩
      intro seq positive written
      exact absurd (Nat.lt_of_lt_of_le positive written) (Nat.lt_irrefl 0)
  | @step s s' move _ next ih =>
      cases move with
      | exec task => exact good_exec ih next
      | drain =>
          cases next
          exact (good_drain ih).1

/-- Exec records are delivered in order and at most once, and are lost only by overwriting; and
where copies to the tracker's buffer succeed, a drain goes forward as long as there is more. -/
theorem records_delivered (reached : (delivery copied callerIsRoot).Reachable s) :
    s.InOrder ∧ ∀ s', (delivery copied callerIsRoot).Step s .drain s' →
      s.LostOnlyOverwritten s' ∧
        ((∀ offset length, offset + length ≤ MAX_PAYLOAD → copied offset length = true) →
          s.Advances s') := by
  have good := good_of_reachable reached
  constructor
  · rcases good.inOrder with ⟨reported, ordered, seen, events⟩
    refine ⟨reported, ordered, ?_, events⟩
    intro seq member
    exact ⟨(seen seq member).1, Nat.le_trans (seen seq member).2 good.written⟩
  · intro s' next
    cases next
    refine ⟨(good_drain good).2, ?_⟩
    intro copies unread
    exact @drain_advances s.ring s.tasks copied callerIsRoot ⟨s.sinceSeq, s.events⟩ good.recent
      unread copies good.root 3

/-- Copies that succeed exactly within the tracker's buffer. -/
def copiedWithin (offset length : Nat) : Bool :=
  decide (offset + length ≤ MAX_PAYLOAD)

theorem record_delivered : ∃ s, (delivery copiedWithin true).Reachable s ∧
    (s.drain copiedWithin true).events.map KernelEvent.pid = [7] ∧ s.InOrder ∧
      s.LostOnlyOverwritten (s.drain copiedWithin true) ∧
        s.Advances (s.drain copiedWithin true) := by
  have events : (Delivery.exec {} ⟨7, 7, 1⟩).map (fun s =>
      (s.drain copiedWithin true).events.map KernelEvent.pid) = some [7] := by
    decide +kernel
  rw [Option.map_eq_some_iff] at events
  rcases events with ⟨s, executed, pushed⟩
  have initial : (delivery copiedWithin true).Reachable {} := .initial ⟨rfl, by decide⟩
  have reached : (delivery copiedWithin true).Reachable s :=
    @System.Reachable.step _ _ _ _ _ (.exec ⟨7, 7, 1⟩) initial executed
  have delivered := records_delivered reached
  have drained := delivered.2 (s.drain copiedWithin true) rfl
  refine ⟨s, reached, pushed, delivered.1, drained.1, drained.2 ?_⟩
  intro offset length fits
  exact decide_eq_true fits

end Runs

end KpmTracker

end Znn.Injector
