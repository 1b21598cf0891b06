import Znn.Injector.Sys
import Znn.Text.Decimal

/-!
# The tracefs parser

The kernel prints one line for every exec and exit: what task it was, the name of the event, and
the fields of the event, a program's own path or name among them as it is. The daemon takes the
line apart again at the blanks and at the first `=` of each word.
-/

namespace Znn.Injector

open Text

namespace Tracefs

def EXEC : List Char := "sched_process_exec:".toList

def EXIT : List Char := "sched_process_exit:".toList

/-- The value of a word `key=value`. -/
def valueOf (key token : List Char) : Option (List Char) :=
  match splitOnce ['='] token with
  | some (name, value) => if name = key then some value else none
  | none => none

def field (fields : List Char) (key : String) : Option (List Char) :=
  (words whiteSpace fields).findSome? (valueOf key.toList)

def prefixComm (line : List Char) : Option (List Char) := do
  let (task, _) ← splitOnce [' '] (line.dropWhile whiteSpace)
  let (comm, _) ← rsplitOnce '-' task
  if comm.isEmpty then none else some comm

/-- `parse::<Pid>`. -/
def parsePid (text : List Char) : Option Pid :=
  parseSigned (2 ^ 31) text

/-- A name cut off or filled up to sixteen bytes. -/
def commOf (name : List Char) : Vector UInt8 16 :=
  Vector.ofFn fun index => (name.flatMap String.utf8EncodeChar).getD index 0

def eventComm (line fields : List Char) : Vector UInt8 16 :=
  match (field fields "comm").or (prefixComm line) with
  | some name => commOf name
  | none => Vector.replicate 16 0

/-- The event of a line whose kind and fields are known. -/
def parseFields (line : List Char) (kind : EventKind) (fields : List Char) :
    Option KernelEvent := do
  let pid ← parsePid (← field fields "pid")
  return {
    kind := kind
    pid := pid
    comm := eventComm line fields
    filename := (field fields "filename").map String.ofList }

def parseLine (line : String) : Option KernelEvent := do
  match splitOnce EXEC line.toList with
  | some (_, fields) => parseFields line.toList .exec fields
  | none =>
      let (_, fields) ← splitOnce EXIT line.toList
      parseFields line.toList .exit fields

/-- What stands before the name of an event: the name of a task in a field of sixteen, a hyphen,
and number, processor, flags and time. -/
structure TaskPrefix where
  comm : List Char
  detail : List Char
  short : comm.length ≤ 16
  plain : '_' ∉ detail

def TaskPrefix.text (task : TaskPrefix) : List Char :=
  task.comm ++ '-' :: (task.detail ++ ':' :: ' ' :: [])

/-- The two events, each with the fields that it prints. -/
inductive SchedEvent where
  | exec (filename : List Char) (pid oldPid : Int32)
  | exit (comm : List Char) (pid prio : Int32)

namespace SchedEvent

/-- `filename=%s pid=%d old_pid=%d` and `comm=%s pid=%d prio=%d`. -/
def text : SchedEvent → List Char
  | exec filename pid oldPid =>
      EXEC ++ ' ' :: ("filename=".toList ++ filename ++ ' ' :: ("pid=".toList ++
        decimal pid.toInt ++ ' ' :: ("old_pid=".toList ++ decimal oldPid.toInt)))
  | exit comm pid prio =>
      EXIT ++ ' ' :: ("comm=".toList ++ comm ++ ' ' :: ("pid=".toList ++
        decimal pid.toInt ++ ' ' :: ("prio=".toList ++ decimal prio.toInt)))

/-- The line of an event. -/
def line (task : TaskPrefix) (event : SchedEvent) : String :=
  String.ofList (task.text ++ event.text)

/-- The parser has made of a line what the kernel meant by it. -/
def RecoveredAs (parsed : Option KernelEvent) : SchedEvent → Prop
  | exec filename pid _ => ∃ event, parsed = some event ∧ event.kind = .exec ∧
      event.pid = pid.toInt ∧ event.filename = some (String.ofList filename)
  | exit _ pid _ => ∃ event, parsed = some event ∧ event.kind = .exit ∧ event.pid = pid.toInt

/-- The first word of a name after its first blank that looks like the field of a pid. -/
def pidWord (comm : List Char) : Option (List Char) :=
  (words whiteSpace (comm.dropWhile fun symbol => !whiteSpace symbol)).find? fun word =>
    decide ("pid=".toList <+: word)

/-- Nothing in the free text of an event is taken for something else. -/
def Unmistakable : SchedEvent → Prop
  | exec filename _ _ => Solid whiteSpace filename
  | exit comm pid _ => ¬EXEC <:+: comm ∧
      ∀ word, pidWord comm = some word → parsePid (word.drop 4) = some pid.toInt

end SchedEvent

example : parseLine ("sh-1234  [002] ....  4567.890123: sched_process_exec: " ++
    "filename=/system/bin/app_process64 pid=1234 old_pid=1234") = some {
      kind := .exec
      pid := 1234
      comm := commOf "sh".toList
      filename := some "/system/bin/app_process64" } := by
  decide +kernel

section Lines

variable {key token free : List Char} {task : TaskPrefix}

theorem valueOf_field (clear : '=' ∉ key) (value : List Char) :
    valueOf key (key ++ '=' :: value) = some value := by
  rw [valueOf, splitOnce_symbol clear]
  exact if_pos rfl

theorem valueOf_other (other : ¬key ++ ['='] <+: token) : valueOf key token = none := by
  unfold valueOf
  cases cut : splitOnce ['='] token with
  | none => rfl
  | some parts =>
      rcases parts with ⟨name, value⟩
      apply if_neg
      rintro rfl
      apply other
      refine ⟨value, ?_⟩
      rw [eq_of_splitOnce cut, List.append_assoc]

/-- The first word with the key decides what is read for it. -/
theorem findSome_valueOf (clear : '=' ∉ key) (tokens : List (List Char)) :
    tokens.findSome? (valueOf key) =
      (tokens.find? fun word => decide (key ++ ['='] <+: word)).map
        fun word => word.drop (key.length + 1) := by
  induction tokens with
  | nil => rfl
  | cons token rest ih =>
      by_cases here : key ++ ['='] <+: token
      · rcases here with ⟨value, rfl⟩
        have read := valueOf_field clear value
        rw [List.append_assoc]
        rw [List.findSome?_cons, List.find?_cons]
        simp [read]
      · rw [List.findSome?_cons, List.find?_cons, valueOf_other here]
        simp [here, ih]

theorem words_fields {last : List Char} (solidKey : Solid whiteSpace key) (hasKey : key ≠ [])
    (solidToken : Solid whiteSpace token) (hasToken : token ≠ [])
    (solidLast : Solid whiteSpace last) (hasLast : last ≠ []) :
    words whiteSpace (' ' :: (key ++ free ++ ' ' :: (token ++ ' ' :: last))) =
      (key ++ free.takeWhile fun symbol => !whiteSpace symbol) ::
        (words whiteSpace (free.dropWhile fun symbol => !whiteSpace symbol) ++ [token, last]) := by
  have isBlank : whiteSpace ' ' = true := rfl
  rw [words_cons_blank isBlank, words_append_cons isBlank, words_append_cons isBlank,
    words_append solidKey hasKey, words_of_solid solidToken hasToken,
    words_of_solid solidLast hasLast]
  rfl

/-- A pattern of the kind of the events' names is not to be found in a task's prefix. -/
theorem infix_text_append_iff {pattern more : List Char} (noHyphen : '-' ∉ pattern)
    (noBlank : ' ' ∉ pattern) (underscored : '_' ∈ pattern) (long : 16 < pattern.length) :
    pattern <:+: task.text ++ more ↔ pattern <:+: more := by
  have inComm : ¬pattern <:+: task.comm := by
    intro found
    exact absurd found.length_le (by have := task.short; omega)
  have inDetail : ¬pattern <:+: task.detail ++ [':'] := by
    intro found
    have member : '_' ∈ task.detail ++ [':'] := found.subset underscored
    simp [task.plain] at member
  have pieces : task.text ++ more =
      task.comm ++ '-' :: ((task.detail ++ [':']) ++ ' ' :: more) := by
    simp [TaskPrefix.text]
  rw [pieces, infix_append_cons_iff noHyphen, infix_append_cons_iff noBlank]
  simp [inComm, inDetail]

theorem splitOnce_exec (rest : List Char) :
    splitOnce EXEC (task.text ++ (EXEC ++ rest)) = some (task.text, rest) := by
  apply splitOnce_append (by decide)
  rw [infix_text_append_iff (by decide) (by decide) (by decide) (by decide)]
  decide

theorem splitOnce_exit (rest : List Char) :
    splitOnce EXIT (task.text ++ (EXIT ++ rest)) = some (task.text, rest) := by
  apply splitOnce_append (by decide)
  rw [infix_text_append_iff (by decide) (by decide) (by decide) (by decide)]
  decide

theorem not_mem_numbers {symbol : Char} {pid last : Int} {first second : List Char}
    (noDigit : symbol.isDigit = false) (noSign : symbol ≠ '-') (noBlank : symbol ≠ ' ')
    (notFirst : symbol ∉ first) (notSecond : symbol ∉ second) :
    symbol ∉ first ++ decimal pid ++ ' ' :: (second ++ decimal last) := by
  intro member
  simp only [List.mem_append, List.mem_cons, notFirst, notSecond, noBlank, false_or] at member
  rcases member with inPid | inLast
  · exact not_mem_decimal noDigit noSign inPid
  · exact not_mem_decimal noDigit noSign inLast

/-- The line of an exit is taken for that of an exec exactly if the task's name says so. -/
theorem exec_infix_exit_iff (comm : List Char) (pid prio : Int32) :
    EXEC <:+: task.text ++ (SchedEvent.exit comm pid prio).text ↔ EXEC <:+: comm := by
  have inNumbers : ¬EXEC <:+:
      "pid=".toList ++ decimal pid.toInt ++ ' ' :: ("prio=".toList ++ decimal prio.toInt) := by
    intro found
    have member := found.subset (a := '_') (by decide)
    exact not_mem_numbers (by decide) (by decide) (by decide) (by decide) (by decide) member
  have inName : ¬EXEC <:+: EXIT := by decide
  have inKey : ¬EXEC <:+: "comm".toList := by decide
  have keyed : "comm=".toList ++ comm = "comm".toList ++ '=' :: comm := rfl
  rw [infix_text_append_iff (by decide) (by decide) (by decide) (by decide), SchedEvent.text,
    infix_append_cons_iff (by decide), infix_append_cons_iff (by decide), keyed,
    infix_append_cons_iff (by decide)]
  simp only [inName, inKey, false_or]
  constructor
  · rintro (inComm | inRest)
    · exact inComm
    · exact absurd inRest inNumbers
  · exact .inl

theorem parseFields_eq (line : List Char) (kind : EventKind) (fields : List Char) :
    parseFields line kind fields = ((field fields "pid").bind parsePid).map fun pid => {
      kind := kind
      pid := pid
      comm := eventComm line fields
      filename := (field fields "filename").map String.ofList } := by
  unfold parseFields
  cases field fields "pid" with
  | none => rfl
  | some word => cases read : parsePid word <;> simp [read]

theorem parsePid_decimal (pid : Int32) : parsePid (decimal pid.toInt) = some pid.toInt :=
  parseSigned_decimal pid.le_toInt pid.toInt_lt

/-- The text that is read for the pid of an event with this free text. -/
def pidText (free : List Char) (pid : Int32) : List Char :=
  match SchedEvent.pidWord free with
  | some word => word.drop 4
  | none => decimal pid.toInt

theorem field_pid {last : List Char} {pid : Int32} (solidKey : Solid whiteSpace key)
    (hasKey : key ≠ []) (other : ∀ value, ¬"pid=".toList <+: key ++ value)
    (solidLast : Solid whiteSpace last) (hasLast : last ≠ []) :
    field (' ' :: (key ++ free ++ ' ' :: ("pid=".toList ++ decimal pid.toInt ++ ' ' :: last)))
      "pid" = some (pidText free pid) := by
  have solidPid : Solid whiteSpace ("pid=".toList ++ decimal pid.toInt) :=
    Solid.append (solid_of_all (by decide)) (solid_decimal pid.toInt)
  have isPid : "pid=".toList <+: "pid=".toList ++ decimal pid.toInt := ⟨_, rfl⟩
  rw [field, words_fields solidKey hasKey solidPid (by simp) solidLast hasLast,
    findSome_valueOf (by decide), List.find?_cons]
  have same : "pid".toList ++ ['='] = "pid=".toList := rfl
  rw [same, decide_eq_false (other _), pidText, SchedEvent.pidWord]
  simp only [List.find?_append]
  cases words whiteSpace (free.dropWhile fun symbol => !whiteSpace symbol) |>.find? fun word =>
      decide ("pid=".toList <+: word) with
  | none => simp
  | some word => rfl

theorem parseLine_exec (filename : List Char) (pid oldPid : Int32) :
    ∃ comm, parseLine (SchedEvent.line task (.exec filename pid oldPid)) =
      (parsePid (pidText filename pid)).map fun found => {
        kind := .exec
        pid := found
        comm := comm
        filename := some (String.ofList (filename.takeWhile fun symbol => !whiteSpace symbol)) } := by
  have solidLast : Solid whiteSpace ("old_pid=".toList ++ decimal oldPid.toInt) :=
    Solid.append (solid_of_all (by decide)) (solid_decimal oldPid.toInt)
  have solidPid : Solid whiteSpace ("pid=".toList ++ decimal pid.toInt) :=
    Solid.append (solid_of_all (by decide)) (solid_decimal pid.toInt)
  have solidKey : Solid whiteSpace "filename=".toList := solid_of_all (by decide)
  have readPid := @field_pid _ filename _ pid solidKey (by decide)
    (by intro value; simp) solidLast (by simp)
  have readWords := @words_fields _ _ filename _ solidKey (by decide) solidPid (by simp)
    solidLast (by simp)
  have name : valueOf "filename".toList ("filename=".toList ++
      filename.takeWhile fun symbol => !whiteSpace symbol) =
        some (filename.takeWhile fun symbol => !whiteSpace symbol) :=
    @valueOf_field "filename".toList (by decide) _
  have readName : field _ "filename" = _ := congrArg (List.findSome? (valueOf _)) readWords
  rw [List.findSome?_cons, name] at readName
  rw [parseLine, SchedEvent.line, String.toList_ofList, SchedEvent.text, splitOnce_exec]
  simp only [parseFields_eq, readPid, readName, Option.bind_some, Option.map_some]
  exact ⟨_, rfl⟩

theorem parseLine_exit {comm : List Char} (clear : ¬EXEC <:+: comm) (pid prio : Int32) :
    ∃ name filename, parseLine (SchedEvent.line task (.exit comm pid prio)) =
      (parsePid (pidText comm pid)).map fun found => {
        kind := .exit
        pid := found
        comm := name
        filename := filename } := by
  have solidLast : Solid whiteSpace ("prio=".toList ++ decimal prio.toInt) :=
    Solid.append (solid_of_all (by decide)) (solid_decimal prio.toInt)
  have solidKey : Solid whiteSpace "comm=".toList := solid_of_all (by decide)
  have readPid := @field_pid _ comm _ pid solidKey (by decide)
    (by intro value; simp) solidLast (by simp)
  have noExec := splitOnce_eq_none_iff.mpr
    (mt (@exec_infix_exit_iff task comm pid prio).mp clear)
  rw [parseLine, SchedEvent.line, String.toList_ofList, noExec]
  simp only [SchedEvent.text, splitOnce_exit, parseFields_eq, Option.bind_eq_bind,
    Option.bind_some, readPid]
  exact ⟨_, _, rfl⟩

/-- A name that quotes the event of an exec turns an exit into one. -/
theorem kind_of_quoted_exec {comm : List Char} (quoted : EXEC <:+: comm) {pid prio : Int32}
    {event : KernelEvent}
    (parsed : parseLine (SchedEvent.line task (.exit comm pid prio)) = some event) :
    event.kind = .exec := by
  rw [parseLine, SchedEvent.line, String.toList_ofList] at parsed
  cases cut : splitOnce EXEC (task.text ++ (SchedEvent.exit comm pid prio).text) with
  | none =>
      have found := (@exec_infix_exit_iff task comm pid prio).mpr quoted
      exact absurd found (splitOnce_eq_none_iff.mp cut)
  | some parts =>
      rw [cut] at parsed
      dsimp only at parsed
      rw [parseFields_eq, Option.map_eq_some_iff] at parsed
      rcases parsed with ⟨found, _, rfl⟩
      rfl

/-- The parser recovers the kernel's event exactly if the executed path has no blank, and the
name of a task that exits neither quotes the event of an exec nor has a later word that looks like
the field of another pid. -/
theorem event_recovered_iff (task : TaskPrefix) (event : SchedEvent) :
    event.RecoveredAs (parseLine (event.line task)) ↔ event.Unmistakable := by
  cases event with
  | exec filename pid oldPid =>
      rcases @parseLine_exec task filename pid oldPid with ⟨name, parsed⟩
      constructor
      · rintro ⟨event, found, _, _, isFile⟩
        rw [parsed, Option.map_eq_some_iff] at found
        rcases found with ⟨found, _, rfl⟩
        exact solid_of_takeWhile (String.ofList_injective (Option.some.inj isFile))
      · intro solid
        have whole := takeWhile_of_solid solid
        have none : SchedEvent.pidWord filename = none := by
          have rest := List.takeWhile_append_dropWhile (l := filename)
            (p := fun symbol => !whiteSpace symbol)
          rw [whole] at rest
          rw [SchedEvent.pidWord, List.append_right_eq_self.mp rest, words_nil]
          rfl
        rw [pidText, none, whole, parsePid_decimal] at parsed
        exact ⟨_, parsed, rfl, rfl, rfl⟩
  | exit comm pid prio =>
      constructor
      · rintro ⟨event, found, isExit, isPid⟩
        have clear : ¬EXEC <:+: comm := by
          intro quoted
          rw [kind_of_quoted_exec quoted found] at isExit
          cases isExit
        refine ⟨clear, ?_⟩
        intro word looksLike
        rcases @parseLine_exit task _ clear pid prio with ⟨name, filename, parsed⟩
        rw [parsed, pidText, looksLike, Option.map_eq_some_iff] at found
        rcases found with ⟨found, read, rfl⟩
        rw [read, ← isPid]
      · rintro ⟨clear, harmless⟩
        rcases @parseLine_exit task _ clear pid prio with ⟨name, filename, parsed⟩
        have read : parsePid (pidText comm pid) = some pid.toInt := by
          unfold pidText
          cases looksLike : SchedEvent.pidWord comm with
          | none => exact parsePid_decimal pid
          | some word => exact harmless word looksLike
        rw [read] at parsed
        exact ⟨_, parsed, rfl, rfl⟩

end Lines

/-- Every line is recovered. -/
def LinesRecovered : Prop :=
  ∀ (task : TaskPrefix) (event : SchedEvent), event.RecoveredAs (parseLine (event.line task))

def shell : TaskPrefix where
  comm := "sh".toList
  detail := "77 [002] .... 4567.890123".toList
  short := by decide
  plain := by decide

/-- The executable is called `a pid=1`: its exec is reported of pid 1. -/
theorem exec_redirected : ¬LinesRecovered := by
  intro recovered
  rcases recovered shell (.exec "/a pid=1".toList 77 77) with ⟨event, parsed, _, isPid, _⟩
  have read : (parseLine (SchedEvent.line shell (.exec "/a pid=1".toList 77 77))).map
      KernelEvent.pid = some 1 := by
    decide +kernel
  rw [parsed, Option.map_some, isPid] at read
  exact absurd read (by decide)

end Tracefs

end Znn.Injector
