import Znn.Injector.Fanotify

/-!
# Records in pieces

Wherever the reads end, the tracker reports the records of the whole stream, each of them once,
and closes what they carry. Only a record of which a drain leaves behind more than the tracker is
willing to keep is lost.
-/

namespace Znn.Injector

open Bytes Interaction Fanotify

namespace FanotifyTracker

/-- The descriptors that were asked for their paths, with the answers. -/
def linksIn : List (Exchange Descriptors) → List (Int × Option String)
  | [] => []
  | ⟨.readLink fd, answer⟩ :: rest => (fd, answer) :: linksIn rest
  | ⟨.close _, _⟩ :: rest => linksIn rest

def closesIn : List (Exchange Descriptors) → List Int
  | [] => []
  | ⟨.close fd, _⟩ :: rest => fd :: closesIn rest
  | ⟨.readLink _, _⟩ :: rest => closesIn rest

/-- The records of a process. -/
def living (items : List Item) : List Item :=
  items.filter fun item => item.pid > 0

/-- The records that carry a descriptor. -/
def carrying (items : List Item) : List Item :=
  items.filter fun item => item.fd ≥ 0

/-- Each record of a process has been reported once and in its turn, with the path of its own
descriptor, and each descriptor has been closed once. -/
structure Reported (items : List Item) (before after : List KernelEvent)
    (transcript : List (Exchange Descriptors)) : Prop where
  links : (linksIn transcript).map Prod.fst = (living items).map Item.fd
  events : after = before ++
    List.zipWith (fun item link => eventOf item.pid link.2) (living items) (linksIn transcript)
  closes : closesIn transcript = (carrying items).map Item.fd

section Reports

variable {items more : List Item} {before middle after : List KernelEvent}
  {first second : List (Exchange Descriptors)}

theorem linksIn_append : linksIn (first ++ second) = linksIn first ++ linksIn second := by
  induction first with
  | nil => rfl
  | cons exchange rest ih =>
      rcases exchange with ⟨_ | _, answer⟩
      · exact congrArg _ ih
      · exact ih

theorem closesIn_append : closesIn (first ++ second) = closesIn first ++ closesIn second := by
  induction first with
  | nil => rfl
  | cons exchange rest ih =>
      rcases exchange with ⟨_ | _, answer⟩
      · exact ih
      · exact congrArg _ ih

theorem living_append : living (items ++ more) = living items ++ living more :=
  List.filter_append items more

theorem carrying_append : carrying (items ++ more) = carrying items ++ carrying more :=
  List.filter_append items more

theorem Reported.nothing : Reported [] before before [] :=
  ⟨rfl, (List.append_nil before).symm, rfl⟩

theorem Reported.append (one : Reported items before middle first)
    (two : Reported more middle after second) :
    Reported (items ++ more) before after (first ++ second) := by
  have same : (living items).length = (linksIn first).length := by
    rw [← List.length_map Item.fd, ← one.links, List.length_map]
  constructor
  · rw [linksIn_append, List.map_append, one.links, two.links, living_append, List.map_append]
  · rw [two.events, one.events, linksIn_append, living_append, List.zipWith_append same,
      List.append_assoc]
  · rw [closesIn_append, one.closes, two.closes, carrying_append, List.map_append]

theorem says_emitRecord (events : List KernelEvent) (item : Item) :
    (emitRecord events item).Says fun after transcript =>
      Reported [item] events after transcript := by
  by_cases alive : item.pid > 0
  · by_cases carries : item.fd ≥ 0
    · simp only [emitRecord, if_pos alive, if_pos carries]
      intro filename closed
      constructor <;> simp [linksIn, closesIn, living, carrying, alive, carries]
    · simp only [emitRecord, if_pos alive, if_neg carries]
      intro filename
      constructor <;> simp [linksIn, closesIn, living, carrying, alive, carries]
  · by_cases carries : item.fd ≥ 0
    · simp only [emitRecord, if_neg alive, if_pos carries]
      intro closed
      constructor <;> simp [linksIn, closesIn, living, carrying, alive, carries]
    · simp only [emitRecord, if_neg alive, if_neg carries]
      constructor <;> simp [linksIn, closesIn, living, carrying, alive, carries]

theorem says_foldlM (items : List Item) (events : List KernelEvent) :
    (items.foldlM emitRecord events).Says fun after transcript =>
      Reported items events after transcript := by
  induction items generalizing events with
  | nil => exact Reported.nothing
  | cons item items ih =>
      rw [List.foldlM_cons, Prog.bind_eq, Prog.says_bind]
      apply (says_emitRecord events item).mono
      intro middle first one
      apply (ih middle).mono
      intro after second two
      exact one.append two

end Reports

section Reassembly

variable {order : Order} {tracker : FanotifyTracker} {events : List KernelEvent}
  {pending : List UInt8}

theorem says_emitRecords :
    (emitRecords order pending events).Says fun result transcript =>
      ∃ consumed after, result = some (consumed, after) ∧ consumed ≤ pending.length ∧
        pending.drop consumed = (cutter order).rest pending ∧
          Reported ((cutter order).frames pending) events after transcript := by
  rcases @collect_eq order pending with ⟨consumed, collected, inside, left⟩
  rw [emitRecords, collected]
  dsimp only
  rw [Prog.bind_eq, Prog.says_bind]
  apply (says_foldlM _ events).mono
  intro after transcript reported
  exact ⟨consumed, after, rfl, inside, left, by rwa [List.append_nil]⟩

/-- The tracker keeps nothing that is complete. -/
def Incomplete (order : Order) (tracker : FanotifyTracker) : Prop :=
  (cutter order).rest tracker.pending = tracker.pending

theorem Incomplete.frames (incomplete : Incomplete order tracker) :
    (cutter order).frames tracker.pending = [] := by
  have none : (cutter order).frames ((cutter order).rest tracker.pending) = [] :=
    (cutter order).framing.frames_rest tracker.pending
  rwa [incomplete] at none

theorem incomplete_of_rest (tracker : FanotifyTracker) (bytes : List UInt8)
    (left : tracker.pending = (cutter order).rest bytes) : Incomplete order tracker := by
  rw [Incomplete, left]
  exact (cutter order).framing.rest_rest bytes

/-- The loop of a drain reports what has become complete and keeps the part that has not. -/
theorem says_readLoop (reads : List EventRead) (incomplete : Incomplete order tracker) :
    (readLoop order tracker reads events).Says fun result transcript =>
      ∃ next after, result = some (next, after) ∧
        next.pending = (cutter order).rest (tracker.pending ++ bytesOf reads) ∧
          Reported ((cutter order).frames (tracker.pending ++ bytesOf reads)) events after
            transcript := by
  have stays : (cutter order).rest (tracker.pending ++ []) = tracker.pending ∧
      Reported ((cutter order).frames (tracker.pending ++ [])) events events [] := by
    rw [List.append_nil, incomplete.frames]
    exact ⟨incomplete, Reported.nothing⟩
  induction reads generalizing tracker events with
  | nil => exact ⟨tracker, events, rfl, stays.1.symm, stays.2⟩
  | cons read rest ih =>
      cases read with
      | wouldBlock => exact ⟨tracker, events, rfl, stays.1.symm, stays.2⟩
      | failed =>
          exact ⟨{ tracker with reportedError := true }, events, rfl, stays.1.symm, stays.2⟩
      | interrupted => exact ih incomplete stays
      | read bytes =>
          cases bytes with
          | nil => exact ⟨tracker, events, rfl, stays.1.symm, stays.2⟩
          | cons byte bytes =>
              rw [readLoop, Prog.bind_eq, Prog.says_bind]
              apply says_emitRecords.mono
              rintro result first ⟨consumed, middle, rfl, inside, left, one⟩
              dsimp only
              rw [if_neg (Nat.not_lt.mpr inside), left]
              have next : Incomplete order {
                  tracker with
                  pending := (cutter order).rest (tracker.pending ++ byte :: bytes) } :=
                incomplete_of_rest _ _ rfl
              have carried : (cutter order).rest
                  ((cutter order).rest (tracker.pending ++ byte :: bytes) ++ []) =
                    (cutter order).rest (tracker.pending ++ byte :: bytes) ∧
                  Reported ((cutter order).frames
                    ((cutter order).rest (tracker.pending ++ byte :: bytes) ++ [])) middle middle
                      [] := by
                rw [List.append_nil, next.frames]
                exact ⟨next, Reported.nothing⟩
              apply (ih next carried).mono
              rintro result second ⟨after, last, rfl, kept, two⟩
              have goesOn := (cutter order).frames_append (tracker.pending ++ byte :: bytes)
                (bytesOf rest)
              rw [bytesOf, ← List.append_assoc, goesOn.1, goesOn.2]
              exact ⟨after, last, rfl, kept, one.append two⟩

/-- What a drain leaves behind of the bytes that it has not reported. -/
def keptOf (left : List UInt8) : List UInt8 :=
  if left.length > MAX_PENDING then [] else left

theorem says_drain (reads : List EventRead) (incomplete : Incomplete order tracker) :
    (drain order tracker reads events).Says fun result transcript =>
      ∃ next after, result = some (next, after) ∧
        next.pending = keptOf ((cutter order).rest (tracker.pending ++ bytesOf reads)) ∧
          Reported ((cutter order).frames (tracker.pending ++ bytesOf reads)) events after
            transcript := by
  rw [drain, Prog.bind_eq, Prog.says_bind]
  apply (says_readLoop reads incomplete).mono
  rintro result transcript ⟨next, after, rfl, left, reported⟩
  dsimp only
  rw [← left, keptOf]
  split
  · exact ⟨_, after, rfl, rfl, by rwa [List.append_nil]⟩
  · exact ⟨next, after, rfl, rfl, by rwa [List.append_nil]⟩

/-- Drain after drain, as long as none leaves too much behind. -/
theorem says_drainAll (drains : List (List EventRead)) (seen : List UInt8)
    (kept : tracker.pending = (cutter order).rest seen)
    (short : ∀ finished, finished <+: drains →
      ((cutter order).rest (seen ++ finished.flatMap bytesOf)).length ≤ MAX_PENDING) :
    (drainAll order drains tracker events).Says fun result transcript =>
      ∃ next after, result = some (next, after) ∧
        next.pending = (cutter order).rest (seen ++ drains.flatMap bytesOf) ∧
          Reported ((cutter order).frames (tracker.pending ++ drains.flatMap bytesOf)) events after
            transcript := by
  induction drains generalizing tracker events seen with
  | nil =>
      refine ⟨tracker, events, rfl, ?_, ?_⟩
      · rw [kept, List.flatMap_nil, List.append_nil]
      · rw [List.flatMap_nil, List.append_nil, (incomplete_of_rest tracker seen kept).frames]
        exact Reported.nothing
  | cons reads rest ih =>
      have whole : (cutter order).rest (tracker.pending ++ bytesOf reads) =
          (cutter order).rest (seen ++ bytesOf reads) := by
        rw [kept]
        exact ((cutter order).frames_append _ _).2.symm
      rw [drainAll, Prog.bind_eq, Prog.says_bind]
      apply (says_drain reads (incomplete_of_rest tracker seen kept)).mono
      rintro result first ⟨next, middle, rfl, left, one⟩
      have fits := short [reads] ⟨rest, rfl⟩
      rw [List.flatMap_singleton] at fits
      rw [whole, keptOf, if_neg (Nat.not_lt.mpr fits)] at left
      dsimp only
      refine (ih (seen ++ bytesOf reads) left ?_).mono ?_
      · intro finished begins
        rw [List.append_assoc, ← List.flatMap_cons]
        exact short (reads :: finished) (List.cons_prefix_cons.mpr ⟨rfl, begins⟩)
      · rintro result second ⟨last, after, rfl, ended, two⟩
        have goesOn := (cutter order).frames_append (tracker.pending ++ bytesOf reads)
          (rest.flatMap bytesOf)
        rw [whole, ← left] at goesOn
        rw [List.flatMap_cons, ← List.append_assoc, ← List.append_assoc, goesOn.1]
        exact ⟨last, after, rfl, ended, one.append two⟩

end Reassembly

section Streams

variable {order : Order} {records : List (Record order)} {drains : List (List EventRead)}

/-- A record of which the end is missing is not taken for one, nor is any other seen in it. -/
theorem frames_truncated (record : Record order) (count : Nat) (short : count < record.bytes.length) :
    (cutter order).frames (record.bytes.take count) = [] ∧
      (cutter order).rest (record.bytes.take count) = record.bytes.take count := by
  apply (cutter order).frames_of_none
  apply recordAt_none
  intro other begins
  have within := begins.length_le
  have long := other.long
  rw [List.length_take] at within
  rw [METADATA_SIZE] at long
  rcases begins.trans (List.take_prefix _ _) with ⟨more, whole⟩
  -- They begin with the same four bytes, and so they have the same length.
  have counted := record.counted
  rw [← whole, EVENT_LEN_OFFSET, List.drop_zero, List.take_append_of_le_length (by omega)] at counted
  have same := other.counted
  rw [EVENT_LEN_OFFSET, List.drop_zero, counted, whole] at same
  omega

theorem length_rest_take (records : List (Record order)) (count : Nat) :
    ((cutter order).rest ((records.flatMap Record.bytes).take count)).length =
      into records (min count (records.flatMap Record.bytes).length) := by
  induction records generalizing count with
  | nil =>
      rw [List.flatMap_nil, List.take_nil, into]
      exact congrArg List.length (cutter order).framing.rest_nil
  | cons record records ih =>
      rw [List.flatMap_cons, into, List.length_append]
      by_cases whole : record.bytes.length ≤ count
      · rw [if_pos (by omega), List.take_append, List.take_of_length_le whole,
          (frames_record record _).2, ih]
        congr 1
        omega
      · rw [if_neg (by omega), List.take_append_of_le_length (by omega),
          (frames_truncated record count (by omega)).2, List.length_take]
        omega

/-- Records that are not too long can be kept whatever is missing of them. -/
theorem into_le {bound : Nat} (short : ∀ record ∈ records, record.bytes.length ≤ bound + 1)
    (count : Nat) : into records count ≤ bound := by
  induction records generalizing count with
  | nil => exact Nat.zero_le _
  | cons record records ih =>
      rw [List.forall_mem_cons] at short
      rw [into]
      split
      · exact ih short.2 _
      · omega

/-- Over all the drains, the records are reported and their descriptors closed. -/
def ReportsRecords (order : Order) (records : List (Record order)) (drains : List (List EventRead))
    (before : List KernelEvent) : Prop :=
  (drainAll order drains {} before).Says fun result transcript =>
    ∃ tracker after, result = some (tracker, after) ∧
      Reported (records.map Record.item) before after transcript

/-- The iterator gives the records at the front of every buffer. And the tracker reports the
records of every stream, wherever the reads end, if no drain leaves more behind of a record than
the tracker keeps. -/
theorem records_reassembled :
    (∀ (order : Order) (buffer : List UInt8), CollectsRecords order buffer) ∧
      ∀ (order : Order) (records : List (Record order)) (drains : List (List EventRead))
        (before : List KernelEvent), drains.flatMap bytesOf = records.flatMap Record.bytes →
          (∀ finished, finished <+: drains →
            into records (finished.flatMap bytesOf).length ≤ MAX_PENDING) →
          ReportsRecords order records drains before := by
  refine ⟨collectsRecords, ?_⟩
  intro order records drains before cut short
  have fits : ∀ finished, finished <+: drains →
      ((cutter order).rest ([] ++ finished.flatMap bytesOf)).length ≤ MAX_PENDING := by
    rintro finished ⟨later, rfl⟩
    rw [List.flatMap_append] at cut
    have front : finished.flatMap bytesOf =
        (records.flatMap Record.bytes).take (finished.flatMap bytesOf).length := by
      rw [← cut, List.take_left]
    have inside : (finished.flatMap bytesOf).length ≤ (records.flatMap Record.bytes).length := by
      rw [← cut, List.length_append]
      omega
    rw [List.nil_append, front, length_rest_take, Nat.min_eq_left inside]
    exact short finished ⟨later, rfl⟩
  have started : ({} : FanotifyTracker).pending = (cutter order).rest [] :=
    (cutter order).framing.rest_nil.symm
  apply (says_drainAll drains [] started fits).mono
  rintro result transcript ⟨tracker, after, rfl, _, reported⟩
  have frames := (frames_records records []).1
  have nothing : (cutter order).frames [] = [] := rfl
  rw [List.append_nil, nothing, List.append_nil] at frames
  dsimp only at reported
  rw [List.nil_append, cut, frames] at reported
  exact ⟨tracker, after, rfl, reported⟩

/-- Two records as the kernel writes them, of processes 42 and 43. -/
def recordsA : List (Record .little) :=
  [{ bytes := little 4 24 ++ List.replicate 12 0 ++ little 4 7 ++ little 4 42
     long := by decide
     counted := by decide },
   { bytes := little 4 24 ++ List.replicate 12 0 ++ little 4 8 ++ little 4 43
     long := by decide
     counted := by decide }]

/-- The first read ends within the second record, and so does the first drain. -/
def drainsA : List (List EventRead) :=
  [[.read ((recordsA.flatMap Record.bytes).take 30), .wouldBlock],
    [.interrupted, .read ((recordsA.flatMap Record.bytes).drop 30)]]

theorem records_reassembledA : CollectsRecords .little (recordsA.flatMap Record.bytes) ∧
    ReportsRecords .little recordsA drainsA [] := by
  refine ⟨records_reassembled.1 _ _, records_reassembled.2 _ _ _ _ (by decide) ?_⟩
  intro finished _
  refine Nat.le_trans (@into_le _ recordsA 23 ?_ _) (by decide)
  decide

/-- Every stream of records is reported, however it is cut into drains and into reads that fit the
buffer. -/
def EveryRecordReported : Prop :=
  ∀ (order : Order) (records : List (Record order)) (drains : List (List EventRead))
    (before : List KernelEvent), drains.flatMap bytesOf = records.flatMap Record.bytes →
      (∀ reads ∈ drains, ∀ bytes, .read bytes ∈ reads → bytes.length ≤ READ_BUFFER_SIZE) →
        ReportsRecords order records drains before

/-- The fields of a record of 65560 bytes. -/
def fieldsA : List UInt8 :=
  little 4 65560 ++ List.replicate 12 0 ++ little 4 7 ++ little 4 42

theorem length_longA : (fieldsA ++ List.replicate 65536 0).length = 65560 := by
  have fields : fieldsA.length = 24 := rfl
  rw [List.length_append, List.length_replicate, fields]

/-- A record that is longer than what the tracker keeps. -/
def longRecordA : Record .little where
  bytes := fieldsA ++ List.replicate 65536 0
  long := by
    rw [length_longA, METADATA_SIZE]
    omega
  counted := by
    rw [EVENT_LEN_OFFSET, List.drop_zero, List.take_append_of_le_length (by decide), length_longA]
    rfl

/-- Reads that fill the buffer as long as they can. -/
def readsOf (bytes : List UInt8) : Nat → List EventRead
  | 0 => []
  | count + 1 =>
      .read (bytes.take READ_BUFFER_SIZE) :: readsOf (bytes.drop READ_BUFFER_SIZE) count

theorem bytesOf_readsOf (bytes : List UInt8) (count : Nat) :
    bytesOf (readsOf bytes count) = bytes.take (READ_BUFFER_SIZE * count) := by
  induction count generalizing bytes with
  | zero => rfl
  | succ count ih =>
      rw [readsOf, Nat.mul_succ, Nat.add_comm, List.take_add, ← ih]
      cases bytes with
      | nil => simp [bytesOf, ih]
      | cons byte bytes => rfl

theorem readsOf_fit {bytes read : List UInt8} {count : Nat}
    (isRead : .read read ∈ readsOf bytes count) : read.length ≤ READ_BUFFER_SIZE := by
  induction count generalizing bytes with
  | zero => cases isRead
  | succ count ih =>
      rcases List.mem_cons.mp isRead with same | later
      · cases same
        exact List.length_take_le _ _
      · exact ih later

/-- A stream that is read in two drains, of which the first ends above the limit. -/
def inTwoDrains (bytes : List UInt8) : List (List EventRead) :=
  [readsOf (bytes.take (MAX_PENDING + 1)) 9, readsOf (bytes.drop (MAX_PENDING + 1)) 1]

section Drains

variable {bytes : List UInt8} (long : bytes.length = MAX_PENDING + METADATA_SIZE)

theorem bytesOf_first : bytesOf (readsOf (bytes.take (MAX_PENDING + 1)) 9) =
    bytes.take (MAX_PENDING + 1) := by
  rw [bytesOf_readsOf, List.take_take]
  rfl

include long

theorem bytesOf_second : bytesOf (readsOf (bytes.drop (MAX_PENDING + 1)) 1) =
    bytes.drop (MAX_PENDING + 1) := by
  have size : METADATA_SIZE = 24 := rfl
  have buffer : READ_BUFFER_SIZE = 8192 := rfl
  rw [bytesOf_readsOf, List.take_of_length_le]
  rw [List.length_drop]
  omega

theorem bytesOf_inTwoDrains : (inTwoDrains bytes).flatMap bytesOf = bytes := by
  rw [inTwoDrains, List.flatMap_cons, List.flatMap_singleton, bytesOf_first, bytesOf_second long,
    List.take_append_drop]

end Drains

/-- One drain ends where the tracker has more of a record than it keeps. What the next drain
reads is no record. -/
theorem says_inTwoDrains (record : Record order)
    (long : record.bytes.length = MAX_PENDING + METADATA_SIZE) :
    (drainAll order (inTwoDrains record.bytes) {} []).Says fun result _ =>
      result.map Prod.snd = some [] := by
  have size : METADATA_SIZE = 24 := rfl
  rcases frames_truncated record (MAX_PENDING + 1) (by omega) with ⟨none, same⟩
  have started : Incomplete order {} := (cutter order).framing.rest_nil
  rw [inTwoDrains, drainAll, Prog.bind_eq, Prog.says_bind]
  apply (says_drain _ started).mono
  rintro result first ⟨next, middle, rfl, left, one⟩
  dsimp only at left one ⊢
  rw [List.nil_append, bytesOf_first] at left one
  have tooMuch : (record.bytes.take (MAX_PENDING + 1)).length > MAX_PENDING := by
    rw [List.length_take]
    omega
  rw [none] at one
  rw [same, keptOf, if_pos tooMuch] at left
  have incomplete : Incomplete order next :=
    incomplete_of_rest next [] (left.trans (cutter order).framing.rest_nil.symm)
  rw [drainAll, Prog.bind_eq, Prog.says_bind]
  apply (says_drain _ incomplete).mono
  rintro result second ⟨last, after, rfl, _, two⟩
  have short : ∀ other : Record order,
      ¬other.bytes <+: next.pending ++ bytesOf (readsOf (record.bytes.drop (MAX_PENDING + 1)) 1) := by
    intro other begins
    have within := begins.length_le
    have enough := other.long
    rw [left, List.nil_append, bytesOf_second long, List.length_drop] at within
    omega
  rw [((cutter order).frames_of_none (recordAt_none short)).1] at two
  exact congrArg some (one.append two).events

/-- The loss of such a record shows if it is of a process. -/
theorem unreported_of_long (record : Record order)
    (long : record.bytes.length = MAX_PENDING + METADATA_SIZE) (alive : record.item.pid > 0) :
    ¬EveryRecordReported := by
  intro every
  have reports : ReportsRecords order [record]
      (inTwoDrains record.bytes) [] := by
    apply every
    · rw [bytesOf_inTwoDrains long, List.flatMap_singleton]
    · intro reads isDrain bytes isRead
      rcases List.mem_cons.mp isDrain with rfl | isLast
      · exact readsOf_fit isRead
      · rw [List.mem_singleton.mp isLast] at isRead
        exact readsOf_fit isRead
  rcases Prog.exists_talks (I := Descriptors) (fun | .readLink _ => none | .close _ => ())
    (drainAll order (inTwoDrains record.bytes) {} []) with
      ⟨value, transcript, talks, _⟩
  have lost := talks.of_says (says_inTwoDrains record long)
  rcases talks.of_says reports with ⟨tracker, after, rfl, reported⟩
  have nothing : after = [] := Option.some.inj lost
  have isLiving : living ([record].map Record.item) = [record.item] := by
    rw [List.map_singleton, living, List.filter_cons_of_pos (by simpa using alive),
      List.filter_nil]
  have links := congrArg List.length reported.links
  have events := congrArg List.length reported.events
  rw [isLiving, List.length_map, List.map_singleton] at links
  rw [isLiving, List.nil_append, List.length_zipWith, links] at events
  rw [nothing] at events
  cases events

theorem long_record_lost : ¬EveryRecordReported :=
  unreported_of_long longRecordA length_longA (by decide)

end Streams

end FanotifyTracker

end Znn.Injector
