import Znn.Bytes.Utf8
import Znn.Injector.Targets
import Znn.Kpm.Channel
import Znn.Text.Decimal

/-!
# The KernelPatch tracker

The tracker asks the channel for the records behind the last number it has seen and reports an
exec for each of them. Between the executions and the reports lie the ring, which forgets, a
buffer, which cuts an answer off after a line, and the text of the lines.
-/

namespace Znn.Injector

open Interaction Text Znn.Kpm

namespace KpmTracker

def MAX_ROUNDS : Nat := 4

def MAX_PAYLOAD : Nat := 4096

structure Record where
  seq : Nat
  pid : Pid
  ppid : Pid
deriving DecidableEq, Repr

/-- The fields as far as they have been read. -/
structure Fields where
  seq : Option Nat := none
  pid : Option Pid := none
  ppid : Option Pid := none

/-- One word of a line: the last of several with one key counts. -/
def Fields.read (fields : Fields) (token : List Char) : Fields :=
  match splitOnce ['='] token with
  | none => fields
  | some (key, value) =>
      if key = "seq".toList then
        { fields with seq := parseUnsigned (2 ^ 64) value }
      else if key = "pid".toList then
        { fields with pid := parseSigned (2 ^ 31) value }
      else if key = "ppid".toList then
        { fields with ppid := parseSigned (2 ^ 31) value }
      else
        fields

def parseLine (line : String) : Option Record := do
  let fields := (words whiteSpace line.toList).foldl Fields.read {}
  return { seq := ← fields.seq, pid := ← fields.pid, ppid := ← fields.ppid }

def eventOf (pid ppid : Pid) : KernelEvent where
  kind := .exec
  pid := pid
  ppid := ppid
  preExec := true

/-- The last number seen and the events pushed so far. -/
structure Drained where
  lastSeq : Nat
  events : List KernelEvent

/-- The loop of `drain` over the lines of one answer. -/
def Drained.takeLine (drained : Drained) (line : String) : Drained :=
  match parseLine line with
  | none => drained
  | some record =>
      let lastSeq := max drained.lastSeq record.seq
      if record.pid ≤ 0 then
        { drained with lastSeq := lastSeq }
      else
        { lastSeq := lastSeq, events := drained.events ++ [eventOf record.pid record.ppid] }

/-- `drain`, with what the channel answers for a number. -/
def drain (answer : Nat → Option (List UInt8)) : Nat → Drained → Drained
  | 0, drained => drained
  | rounds + 1, drained =>
      match answer drained.lastSeq with
      | none => drained
      | some bytes =>
          if bytes.length = 0 then
            drained
          else
            let filled := bytes.take MAX_PAYLOAD
            let after := (Targets.lines (Bytes.lossy filled)).foldl Drained.takeLine drained
            if filled.length < MAX_PAYLOAD then after else drain answer rounds after

/-- `kpm::read_records`, for the buffer of the tracker. -/
def readRecords (copied : Nat → Nat → Bool) (callerIsRoot : Bool) (ring : Ring) (since : Nat) :
    Option (List UInt8) :=
  (channelBefore copied ring callerIsRoot MAX_PAYLOAD since).map bytesOf

/-- `start`: the number to begin with, if the channel answers. -/
def start (copied : Nat → Nat → Bool) (callerIsRoot : Bool) (ring : Ring) : Option Nat :=
  (readRecords copied callerIsRoot ring 0).map fun _ => 0

section Lines

variable {seq : Nat} {pid tgid ppid : Int32} {drained : Drained}

/-- What holds of digits and of the text around them holds of a line. -/
theorem recordText_all (p : Char → Prop) (digit : ∀ symbol : Char, symbol.isDigit = true → p symbol)
    (around : ∀ symbol ∈ "seqpidtg= -".toList, p symbol) :
    ∀ symbol ∈ recordText seq pid tgid ppid, p symbol := by
  have number : ∀ value : Int, ∀ symbol ∈ decimal value, p symbol := by
    intro value symbol member
    rcases decimal_symbols member with isDigit | rfl
    · exact digit symbol isDigit
    · exact around '-' (by decide)
  have text : ∀ key : List Char, key ⊆ "seqpidtg= -".toList → ∀ symbol ∈ key, p symbol :=
    fun key within symbol member => around symbol (within member)
  intro symbol member
  simp only [recordText, List.mem_append, List.mem_cons] at member
  rcases member with (key | inSeq) | rfl | (key | inPid) | rfl | (key | inTgid) | rfl | key | inPpid
  · exact text _ (by decide) symbol key
  · exact number (.ofNat seq) symbol inSeq
  · exact around ' ' (by decide)
  · exact text _ (by decide) symbol key
  · exact number _ symbol inPid
  · exact around ' ' (by decide)
  · exact text _ (by decide) symbol key
  · exact number _ symbol inTgid
  · exact around ' ' (by decide)
  · exact text _ (by decide) symbol key
  · exact number _ symbol inPpid

/-- A line is of one piece. -/
theorem recordText_clear :
    '\n' ∉ recordText seq pid tgid ppid ∧ '\r' ∉ recordText seq pid tgid ppid := by
  have symbols := @recordText_all seq pid tgid ppid (fun symbol => symbol ≠ '\n' ∧ symbol ≠ '\r')
    (by
      rintro symbol digit
      constructor
      · rintro rfl
        exact absurd digit (by decide)
      · rintro rfl
        exact absurd digit (by decide))
    (by simp)
  exact ⟨fun member => (symbols _ member).1 rfl, fun member => (symbols _ member).2 rfl⟩

theorem recordText_ascii {symbol : Char} (member : symbol ∈ recordText seq pid tgid ppid) :
    symbol.toNat < 128 := by
  refine recordText_all (fun symbol => symbol.toNat < 128) ?_ (by simp) symbol member
  intro symbol digit
  simp only [Char.isDigit, ge_iff_le, Bool.and_eq_true, decide_eq_true_eq,
    UInt32.le_iff_toNat_le] at digit
  have top : symbol.toNat ≤ 57 := digit.2
  omega

theorem words_recordText : words whiteSpace (recordText seq pid tgid ppid) =
    ["seq=".toList ++ Nat.toDigits 10 seq, "pid=".toList ++ decimal pid.toInt,
      "tgid=".toList ++ decimal tgid.toInt, "ppid=".toList ++ decimal ppid.toInt] := by
  have isBlank : whiteSpace ' ' = true := rfl
  have field : ∀ {key number : List Char}, Solid whiteSpace key → Solid whiteSpace number →
      key ≠ [] → words whiteSpace (key ++ number) = [key ++ number] :=
    fun solidKey solidNumber hasKey =>
      words_of_solid (solidKey.append solidNumber) (by simp [hasKey])
  rw [recordText, words_append_cons isBlank, words_append_cons isBlank, words_append_cons isBlank,
    field (solid_of_all (by decide)) (solid_toDigits seq) (by decide),
    field (solid_of_all (by decide)) (solid_decimal _) (by decide),
    field (solid_of_all (by decide)) (solid_decimal _) (by decide),
    field (solid_of_all (by decide)) (solid_decimal _) (by decide)]
  rfl

theorem parsePid_decimal (pid : Int32) : parseSigned (2 ^ 31) (decimal pid.toInt) = some pid.toInt :=
  parseSigned_decimal pid.le_toInt pid.toInt_lt

section Words

variable (fields : Fields)

theorem read_seq (word : seq < 2 ^ 64) :
    fields.read ("seq=".toList ++ Nat.toDigits 10 seq) = { fields with seq := some seq } := by
  have cut : splitOnce ['='] ("seq=".toList ++ Nat.toDigits 10 seq) =
      some ("seq".toList, Nat.toDigits 10 seq) :=
    @splitOnce_symbol _ _ "seq".toList _ '=' (by decide)
  rw [Fields.read, cut]
  dsimp only
  rw [if_pos rfl, parseUnsigned_toDigits word]

theorem read_pid : fields.read ("pid=".toList ++ decimal pid.toInt) =
    { fields with pid := some pid.toInt } := by
  have cut : splitOnce ['='] ("pid=".toList ++ decimal pid.toInt) =
      some ("pid".toList, decimal pid.toInt) :=
    @splitOnce_symbol _ _ "pid".toList _ '=' (by decide)
  rw [Fields.read, cut]
  dsimp only
  rw [if_neg (by decide), if_pos rfl, parsePid_decimal]

theorem read_tgid : fields.read ("tgid=".toList ++ decimal tgid.toInt) = fields := by
  have cut : splitOnce ['='] ("tgid=".toList ++ decimal tgid.toInt) =
      some ("tgid".toList, decimal tgid.toInt) :=
    @splitOnce_symbol _ _ "tgid".toList _ '=' (by decide)
  rw [Fields.read, cut]
  dsimp only
  rw [if_neg (by decide), if_neg (by decide), if_neg (by decide)]

theorem read_ppid : fields.read ("ppid=".toList ++ decimal ppid.toInt) =
    { fields with ppid := some ppid.toInt } := by
  have cut : splitOnce ['='] ("ppid=".toList ++ decimal ppid.toInt) =
      some ("ppid".toList, decimal ppid.toInt) :=
    @splitOnce_symbol _ _ "ppid".toList _ '=' (by decide)
  rw [Fields.read, cut]
  dsimp only
  rw [if_neg (by decide), if_neg (by decide), if_pos rfl, parsePid_decimal]

end Words

/-- A line is read as it was printed. -/
theorem parseLine_recordText (word : seq < 2 ^ 64) :
    parseLine (String.ofList (recordText seq pid tgid ppid)) =
      some { seq := seq, pid := pid.toInt, ppid := ppid.toInt } := by
  have fields : (words whiteSpace (recordText seq pid tgid ppid)).foldl Fields.read {} =
      { seq := some seq, pid := some pid.toInt, ppid := some ppid.toInt } := by
    rw [words_recordText, List.foldl_cons, List.foldl_cons, List.foldl_cons, List.foldl_cons,
      List.foldl_nil, read_seq _ word, read_pid, read_tgid, read_ppid]
  rw [parseLine, String.toList_ofList, fields]
  rfl

theorem takeLine_recordText (word : seq < 2 ^ 64) :
    drained.takeLine (String.ofList (recordText seq pid tgid ppid)) = {
      lastSeq := max drained.lastSeq seq
      events := if pid.toInt ≤ 0 then drained.events
        else drained.events ++ [eventOf pid.toInt ppid.toInt] } := by
  rw [Drained.takeLine, parseLine_recordText word]
  dsimp only
  split <;> rfl

/-- Joined by line feeds, lines are taken apart again. -/
theorem lines_joined {pieces : List (List Char)}
    (clear : ∀ piece ∈ pieces, '\n' ∉ piece ∧ '\r' ∉ piece) :
    Targets.lines (String.ofList (pieces.flatMap fun piece => piece ++ ['\n'])) =
      pieces.map String.ofList := by
  have cut : (pieces.flatMap fun piece => piece ++ ['\n']).splitOn '\n' = pieces ++ [[]] := by
    induction pieces with
    | nil => rfl
    | cons piece rest ih =>
        have here : ∀ symbol ∈ piece, (symbol == '\n') = false := by
          intro symbol member
          apply beq_false_of_ne
          rintro rfl
          exact (clear piece List.mem_cons_self).1 member
        rw [List.flatMap_cons, List.append_assoc, List.singleton_append,
          List.splitOn_eq_splitOnP, List.splitOnP_append_cons_of_forall_mem here _ (by simp),
          ← List.splitOn_eq_splitOnP, ih fun other member => clear other (List.mem_cons_of_mem _ member)]
        rfl
  rw [Targets.lines, String.toList_ofList, cut]
  simp only [List.getLast?_concat, if_true, List.dropLast_concat]
  apply List.map_congr_left
  intro piece member
  have noReturn : piece.getLast? ≠ some '\r' := by
    intro last
    exact (clear piece member).2 (List.mem_of_getLast? last)
  rw [if_neg noReturn]

/-- What the kernel module has printed is text. -/
theorem lossy_formatExecRecord (word : seq < 2 ^ 64) {capacity : Nat}
    (roomy : ZNN_LINE_CAPACITY ≤ capacity) :
    Bytes.lossy (formatExecRecord capacity seq pid tgid ppid) =
      String.ofList (recordText seq pid tgid ppid ++ ['\n']) := by
  rw [formatExecRecord_of_capacity word pid tgid ppid roomy, ascii]
  apply Bytes.lossy_ascii
  intro symbol member
  rcases List.mem_append.mp member with inText | lineFeed
  · exact recordText_ascii inText
  · rw [List.mem_singleton.mp lineFeed]
    decide

/-- A line feed at the end is a blank like any other. -/
theorem parseLine_lineFeed (line : List Char) :
    parseLine (String.ofList (line ++ ['\n'])) = parseLine (String.ofList line) := by
  have isBlank : whiteSpace '\n' = true := rfl
  rw [parseLine, parseLine, String.toList_ofList, String.toList_ofList, words_append_cons isBlank,
    words_nil, List.append_nil]

/-- A record that is printed into a line's buffer fits into it, as a whole line, and its numbers
are read back, whether the line feed has been cut off or not. -/
theorem record_round_trip (seq : UInt64) (pid tgid ppid : Int32) :
    let line := formatExecRecord ZNN_LINE_CAPACITY seq.toNat pid tgid ppid
    let record : Record := { seq := seq.toNat, pid := pid.toInt, ppid := ppid.toInt }
    (∀ capacity, ZNN_LINE_CAPACITY ≤ capacity →
        formatExecRecord capacity seq.toNat pid tgid ppid = line) ∧
      line.getLast? = some 10 ∧ line.length ≤ ZNN_LINE_CAPACITY ∧
      parseLine (Bytes.lossy line) = some record ∧
      (Targets.lines (Bytes.lossy line)).map parseLine = [some record] := by
  intro line record
  have word : seq.toNat < 2 ^ 64 := seq.toNat_lt
  have printed : line = ascii (recordText seq.toNat pid tgid ppid ++ ['\n']) :=
    formatExecRecord_eq word pid tgid ppid
  have decoded : Bytes.lossy line = String.ofList (recordText seq.toNat pid tgid ppid ++ ['\n']) :=
    lossy_formatExecRecord word (Nat.le_refl _)
  have parsed : parseLine (String.ofList (recordText seq.toNat pid tgid ppid)) = some record :=
    parseLine_recordText word
  refine ⟨?_, ?_, ?_, ?_, ?_⟩
  · intro capacity roomy
    rw [printed, formatExecRecord_of_capacity word pid tgid ppid roomy]
  · rw [printed, ascii, List.map_append]
    exact List.getLast?_concat
  · have short := length_recordText_le word pid tgid ppid
    rw [printed, length_ascii, List.length_append, ZNN_LINE_CAPACITY, List.length_singleton]
    omega
  · rw [decoded, parseLine_lineFeed, parsed]
  · have cut := @lines_joined [recordText seq.toNat pid tgid ppid] (by
      intro piece member
      rw [List.mem_singleton.mp member]
      exact recordText_clear)
    rw [List.flatMap_singleton] at cut
    rw [decoded, cut]
    exact congrArg (fun record => [record]) parsed

end Lines

end KpmTracker

end Znn.Injector
