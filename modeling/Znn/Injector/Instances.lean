import Znn.Bytes.Utf8
import Znn.Interaction.Mortal
import Znn.Injector.Sys
import Znn.Plan.Encode
import Znn.Text.Decimal

/-!
# One daemon at a time

`main` looks through `/proc` for a daemon that is running already and serves only if it has found
none. Nothing keeps two that start at the same time from looking at the same time. But each of
them can be found from its start on, and it looks after that: of two that serve, one must have
started before the other looked.

What `main` does with the files of the module is a call here, and so is the daemon's loop.
-/

namespace Znn.Injector

open Interaction Text

namespace Instances

/-- `/proc/<pid>/comm` of the injector. -/
def COMM : List UInt8 := asBytes "injector\n"

/-- The arguments of a `/proc/<pid>/cmdline`. -/
def argumentsOf (cmdline : List UInt8) : List String :=
  ((cmdline.splitOn 0).filter fun argument => argument ≠ []).map Bytes.lossy

/-- The command line of a process whose `main` has no control command to answer. -/
structure Launch where
  cmdline : List UInt8
  plain : "--ctl" ∉ argumentsOf cmdline

inductive Request where
  | verifyModule
  | restoreProp
  | now
  | sleep (milliseconds : Nat)
  | readDir
  | comm (pid : Pid)
  | cmdline (pid : Pid)
  | serve
  | exit (code : Int)

/-- `exit` does not return. -/
abbrev Request.Answer : Request → Type
  | .verifyModule => Bool
  | .restoreProp => Unit
  | .now => Nat
  | .sleep _ => Unit
  | .readDir => Option (List (List UInt8))
  | .comm _ => Option (List UInt8)
  | .cmdline _ => Option (List UInt8)
  | .serve => Unit
  | .exit _ => Empty

/-- A process begins, or asks for something. -/
inductive Call where
  | exec (launch : Launch)
  | ask (self : Pid) (request : Request)

abbrev Call.Answer : Call → Type
  | .exec _ => Pid
  | .ask _ request => request.Answer

abbrev Kernel : Interface where
  Call := Call
  Answer := Call.Answer

def exec (launch : Launch) : Prog Kernel Pid :=
  Prog.perform (I := Kernel) (.exec launch)

section Program

variable (self : Pid)

def ask (request : Request) : Prog Kernel request.Answer :=
  Prog.perform (I := Kernel) (.ask self request)

def isInjectorProcess (pid : Pid) : Prog Kernel Bool := do
  if pid ≤ 1 then
    return false
  let some comm ← ask self (.comm pid)
    | return false
  return (asBytes "injector").isPrefixOf (comm.take 63)

def commandLine (pid : Pid) : Prog Kernel (List String) := do
  let some contents ← ask self (.cmdline pid)
    | return []
  return argumentsOf contents

def isDaemonAlive (pid : Pid) : Prog Kernel Bool := do
  if pid ≤ 1 ∨ pid = self then
    return false
  if !(← isInjectorProcess self pid) then
    return false
  return !(← commandLine self pid).contains "--ctl"

/-- `name.to_string_lossy().parse()`. -/
def pidOf (name : List UInt8) : Option Pid :=
  parseSigned (2 ^ 31) (Bytes.lossy name).toList

/-- The body of the loop of `find_daemon_pid`. -/
def look (found : Option Pid) (name : List UInt8) : Prog Kernel (Option Pid) := do
  let some pid := pidOf name
    | return found
  if !(← isDaemonAlive self pid) then
    return found
  return some (found.elim pid fun current => min current pid)

def findDaemonPid (recorded : Option Pid) : Prog Kernel (Option Pid) := do
  if let some pid := recorded then
    if ← isDaemonAlive self pid then
      return recorded
  let some names ← ask self .readDir
    | return none
  names.foldlM (look self) none

def exitNow (code : Int) : Prog Kernel Unit := do
  let never ← ask self (.exit code)
  nomatch never

/-- The loop of `main` and what comes after it. The loop may take any number of turns; a process
that has had `rounds` of them makes no more steps here. -/
def awaitPrevious (deadline : Nat) : Nat → Prog Kernel Unit
  | 0 => return ()
  | rounds + 1 => do
      match ← findDaemonPid self none with
      | none => do
          ask self .serve
          exitNow self 0
      | some _ => do
          if (← ask self .now) ≥ deadline then
            exitNow self 1
          ask self (.sleep 100)
          awaitPrevious deadline rounds

end Program

/-- `main` without a control command, from the start of its process. -/
def main (launch : Launch) (rounds : Nat) : Prog Kernel Unit := do
  let self ← exec launch
  if !(← ask self .verifyModule) then
    ask self .restoreProp
    exitNow self 1
  let started ← ask self .now
  awaitPrevious self (started + 3000) rounds

/-- A process that runs `main`: when it began, when it last began to look through `/proc`, and
whether it serves. -/
structure Instance where
  born : Nat
  looked : Nat
  serving : Bool := false
deriving DecidableEq, Repr

structure Process where
  comm : List UInt8
  cmdline : List UInt8
  instance? : Option Instance := none
deriving DecidableEq, Repr

/-- The processes of the system. The clock counts the starts of instances and their looks. -/
structure Table where
  clock : Nat := 0
  processes : Pid → Option Process := fun _ => none

namespace Table

def instanceAt (table : Table) (pid : Pid) : Option Instance :=
  (table.processes pid).bind Process.instance?

def put (table : Table) (pid : Pid) (process : Option Process) : Table :=
  { table with processes := Function.update table.processes pid process }

def modify (table : Table) (pid : Pid) (change : Instance → Instance) : Table :=
  table.put pid ((table.processes pid).map fun process =>
    { process with instance? := process.instance?.map change })

def tick (table : Table) : Table :=
  { table with clock := table.clock + 1 }

def begin (table : Table) (pid : Pid) (launch : Launch) : Table :=
  (table.put pid (some {
    comm := COMM
    cmdline := launch.cmdline
    instance? := some { born := table.clock, looked := table.clock } })).tick

def beginLook (table : Table) (pid : Pid) : Table :=
  (table.modify pid fun own => { own with looked := table.clock }).tick

def serve (table : Table) (pid : Pid) : Table :=
  table.modify pid fun own => { own with serving := true }

/-- Other processes come, go and change as they like. -/
structure Churns (before after : Table) : Prop where
  clock : after.clock = before.clock
  instances : ∀ pid process, process.instance?.isSome →
    (after.processes pid = some process ↔ before.processes pid = some process)

def Serves (table : Table) (pid : Pid) : Prop :=
  ∃ own, table.instanceAt pid = some own ∧ own.serving = true

end Table

/-- What the kernel answers. `/proc` can be listed, and every process is in it. -/
def Answered (table : Table) : (call : Call) → call.Answer → Table → Prop
  | .exec launch, pid, after =>
      1 < pid ∧ table.instanceAt pid = none ∧ after = table.begin pid launch
  | .ask self .readDir, listed, after =>
      (∃ names, listed = some names ∧
        ∀ pid, table.processes pid ≠ none → ∃ name ∈ names, pidOf name = some pid) ∧
      after = table.beginLook self
  | .ask _ (.comm pid), comm, after =>
      comm = (table.processes pid).map Process.comm ∧ after = table
  | .ask _ (.cmdline pid), cmdline, after =>
      cmdline = (table.processes pid).map Process.cmdline ∧ after = table
  | .ask self .serve, _, after => after = table.serve self
  | .ask _ .verifyModule, _, after | .ask _ .restoreProp, _, after | .ask _ .now, _, after
  | .ask _ (.sleep _), _, after => after = table

/-- A process that has stopped may be left behind as something else. -/
def Stopped (table : Table) : Call → Table → Prop
  | .exec _, after => after = table
  | .ask self _, after => ∃ left : Option Process, left.bind Process.instance? = none ∧
      after = table.put self left

/-- Before every call the other processes may have done anything. -/
def machine : Machine Kernel Table where
  Step before request answer after :=
    ∃ middle, before.Churns middle ∧ Answered middle request answer after

def stops (before : Table) (request : Call) (after : Table) : Prop :=
  ∃ middle, before.Churns middle ∧ Stopped middle request after

/-- Any number of processes run `main`. -/
def launched {ι : Type} (launches : ι → Launch) (rounds : ι → Nat) :
    Pool Kernel.mortal ι (Option Unit) Table where
  threads i := (main (launches i) (rounds i)).mortal
  shared := {}

section Tables

namespace Table

variable {table before after : Table} {pid other self : Pid} {own : Instance}

@[simp]
theorem instanceAt_put (process : Option Process) : (table.put pid process).instanceAt other =
    if other = pid then process.bind Process.instance? else table.instanceAt other := by
  unfold instanceAt put
  dsimp only
  split
  case isTrue same => rw [same, Function.update_self]
  case isFalse apart => rw [Function.update_of_ne apart]

@[simp]
theorem instanceAt_tick : table.tick.instanceAt other = table.instanceAt other := rfl

theorem instanceAt_modify (change : Instance → Instance) :
    (table.modify pid change).instanceAt other =
      if other = pid then (table.instanceAt pid).map change else table.instanceAt other := by
  rw [modify, instanceAt_put]
  split
  · unfold instanceAt
    cases table.processes pid <;> rfl
  · rfl

theorem processes_modify (change : Instance → Instance) {process : Process}
    (present : (table.modify pid change).processes other = some process) :
    ∃ earlier, table.processes other = some earlier ∧ process.comm = earlier.comm ∧
      process.cmdline = earlier.cmdline ∧
      (process.instance?.isSome → earlier.instance?.isSome) := by
  unfold modify put at present
  dsimp only at present
  by_cases same : other = pid
  · rw [same, Function.update_self, Option.map_eq_some_iff] at present
    rcases present with ⟨earlier, present, rfl⟩
    refine ⟨earlier, same ▸ present, rfl, rfl, fun isSome => ?_⟩
    simpa using isSome
  · rw [Function.update_of_ne same] at present
    exact ⟨process, present, rfl, rfl, id⟩

/-- What holds of a table whose instances run `main`: each shows that it is one, and when one
that serves began to look, every other that is there now had not started. -/
structure Sound (table : Table) : Prop where
  shown : ∀ pid process, table.processes pid = some process → process.instance?.isSome →
    1 < pid ∧ process.comm = COMM ∧ "--ctl" ∉ argumentsOf process.cmdline
  dated : ∀ pid own, table.instanceAt pid = some own →
    own.born ≤ own.looked ∧ own.looked < table.clock
  alone : ∀ pid own, table.instanceAt pid = some own → own.serving = true →
    ∀ other later, other ≠ pid → table.instanceAt other = some later → own.looked < later.born

/-- Of the instances that are there, those that had started when `self` began to look are still
to come in its look. -/
def Unseen (table : Table) (self : Pid) (looked : Nat) (rest : List Pid) : Prop :=
  ∀ other later, other ≠ self → table.instanceAt other = some later →
    other ∈ rest ∨ looked < later.born

/-- How a call of `caller` may change a table. -/
structure Changes (caller : Pid) (before after : Table) : Prop where
  others : ∀ other, other ≠ caller → after.instanceAt other = before.instanceAt other
  own : ∀ own, after.instanceAt caller = some own →
    (∃ earlier, before.instanceAt caller = some earlier ∧ own.born = earlier.born) ∨
      own.born = before.clock

/-- Two that serve had each started when the other began to look. -/
theorem Sound.eq_of_serves (sound : table.Sound) (first : table.Serves pid)
    (second : table.Serves other) : pid = other := by
  by_contra apart
  rcases first with ⟨own, isOwn, serves⟩
  rcases second with ⟨own', isOwn', serves'⟩
  have after := sound.alone pid own isOwn serves other own' (Ne.symm apart) isOwn'
  have before := sound.alone other own' isOwn' serves' pid own apart isOwn
  have dated := sound.dated pid own isOwn
  have dated' := sound.dated other own' isOwn'
  omega

theorem Unseen.changes {looked : Nat} {rest : List Pid} (unseen : before.Unseen pid looked rest)
    (dated : looked < before.clock) (changes : Changes self before after) :
    after.Unseen pid looked rest := by
  intro other later apart isLater
  by_cases same : other = self
  · subst same
    rcases changes.own later isLater with ⟨earlier, isEarlier, born⟩ | born
    · rw [born]
      exact unseen other earlier apart isEarlier
    · rw [born]
      exact .inr dated
  · rw [changes.others other same] at isLater
    exact unseen other later apart isLater

theorem Churns.instanceAt (churns : before.Churns after) :
    after.instanceAt pid = before.instanceAt pid := by
  apply Option.ext
  intro own
  simp only [Table.instanceAt, Option.bind_eq_some_iff]
  constructor
  · rintro ⟨process, present, isOwn⟩
    exact ⟨process, (churns.instances pid process (by rw [isOwn]; rfl)).mp present, isOwn⟩
  · rintro ⟨process, present, isOwn⟩
    exact ⟨process, (churns.instances pid process (by rw [isOwn]; rfl)).mpr present, isOwn⟩

theorem Churns.changes (churns : before.Churns after) : Changes self before after where
  others _ _ := churns.instanceAt
  own own isOwn := .inl ⟨own, churns.instanceAt.symm.trans isOwn, rfl⟩

theorem Sound.churns (sound : before.Sound) (churns : before.Churns after) : after.Sound where
  shown pid process present isSome :=
    sound.shown pid process ((churns.instances pid process isSome).mp present) isSome
  dated pid own isOwn := by
    rw [churns.instanceAt] at isOwn
    rw [churns.clock]
    exact sound.dated pid own isOwn
  alone pid own isOwn serves other later apart isLater := by
    rw [churns.instanceAt] at isOwn isLater
    exact sound.alone pid own isOwn serves other later apart isLater

/-- What is there besides `self` had started before, so a look of another that has ended stands. -/
theorem Sound.alone_changes (sound : before.Sound) (changes : Changes self before after)
    (apart : pid ≠ self) (isOwn : after.instanceAt pid = some own) (serves : own.serving = true) :
    ∀ other later, other ≠ pid → after.instanceAt other = some later → own.looked < later.born := by
  rw [changes.others pid apart] at isOwn
  have unseen : before.Unseen pid own.looked [] := by
    intro other later apart isLater
    exact .inr (sound.alone pid own isOwn serves other later apart isLater)
  intro other later apart isLater
  have stands := unseen.changes (sound.dated pid own isOwn).2 changes other later apart isLater
  exact stands.resolve_left List.not_mem_nil

theorem changes_begin (launch : Launch) : Changes pid table (table.begin pid launch) where
  others other apart := by rw [begin, instanceAt_tick, instanceAt_put, if_neg apart]
  own own isOwn := by
    rw [begin, instanceAt_tick, instanceAt_put, if_pos rfl] at isOwn
    cases isOwn
    exact .inr rfl

theorem changes_modify {change : Instance → Instance} (born : ∀ own, (change own).born = own.born) :
    Changes pid table (table.modify pid change) where
  others other apart := by rw [instanceAt_modify, if_neg apart]
  own own isOwn := by
    rw [instanceAt_modify, if_pos rfl, Option.map_eq_some_iff] at isOwn
    rcases isOwn with ⟨earlier, isEarlier, rfl⟩
    exact .inl ⟨earlier, isEarlier, born earlier⟩

theorem changes_beginLook : Changes pid table (table.beginLook pid) := by
  have changes : Changes pid table
      (table.modify pid fun own => { own with looked := table.clock }) :=
    changes_modify fun _ => rfl
  exact ⟨changes.others, changes.own⟩

theorem changes_put {left : Option Process} (none : left.bind Process.instance? = none) :
    Changes pid table (table.put pid left) where
  others other apart := by rw [instanceAt_put, if_neg apart]
  own own isOwn := by
    rw [instanceAt_put, if_pos rfl, none] at isOwn
    cases isOwn

theorem Sound.begin (sound : table.Sound) (high : 1 < pid) (launch : Launch) :
    (table.begin pid launch).Sound where
  shown other process present isSome := by
    by_cases same : other = pid
    · subst same
      have begun : (table.begin other launch).processes other = _ := Function.update_self ..
      cases present.symm.trans begun
      exact ⟨high, rfl, launch.plain⟩
    · have stands : (table.begin pid launch).processes other = table.processes other :=
        Function.update_of_ne same ..
      exact sound.shown other process (stands.symm.trans present) isSome
  dated other own isOwn := by
    rw [Table.begin, instanceAt_tick, instanceAt_put] at isOwn
    have later : table.clock < (table.begin pid launch).clock := Nat.lt_succ_self _
    split at isOwn
    · cases isOwn
      exact ⟨Nat.le_refl _, later⟩
    · have dated := sound.dated other own isOwn
      exact ⟨dated.1, Nat.lt_trans dated.2 later⟩
  alone other own isOwn serves := by
    by_cases same : other = pid
    · rw [Table.begin, instanceAt_tick, instanceAt_put, if_pos same] at isOwn
      cases isOwn
      cases serves
    · exact sound.alone_changes (changes_begin launch) same isOwn serves

theorem Sound.beginLook (sound : table.Sound) (isOwn : table.instanceAt pid = some own)
    (idle : own.serving = false) : (table.beginLook pid).Sound where
  shown other process present isSome := by
    rcases processes_modify _ present with ⟨earlier, isEarlier, comm, cmdline, wasSome⟩
    rw [comm, cmdline]
    exact sound.shown other earlier isEarlier (wasSome isSome)
  dated other looker isLooker := by
    rw [Table.beginLook, instanceAt_tick, instanceAt_modify] at isLooker
    have later : table.clock < (table.beginLook pid).clock := Nat.lt_succ_self _
    split at isLooker
    · rw [isOwn] at isLooker
      cases isLooker
      have dated := sound.dated pid own isOwn
      exact ⟨Nat.le_of_lt (Nat.lt_of_le_of_lt dated.1 dated.2), later⟩
    · have dated := sound.dated other looker isLooker
      exact ⟨dated.1, Nat.lt_trans dated.2 later⟩
  alone other looker isLooker serves := by
    by_cases same : other = pid
    · rw [Table.beginLook, instanceAt_tick, instanceAt_modify, if_pos same, isOwn] at isLooker
      cases isLooker
      exact absurd (idle.symm.trans serves) (by decide)
    · exact sound.alone_changes changes_beginLook same isLooker serves

theorem Sound.serve (sound : table.Sound) (isOwn : table.instanceAt pid = some own)
    (unseen : table.Unseen pid own.looked []) : (table.serve pid).Sound where
  shown other process present isSome := by
    rcases processes_modify _ present with ⟨earlier, isEarlier, comm, cmdline, wasSome⟩
    rw [comm, cmdline]
    exact sound.shown other earlier isEarlier (wasSome isSome)
  dated other server isServer := by
    rw [Table.serve, instanceAt_modify] at isServer
    split at isServer
    · rw [isOwn] at isServer
      cases isServer
      exact sound.dated pid own isOwn
    · exact sound.dated other server isServer
  alone other server isServer serves := by
    by_cases same : other = pid
    · rw [Table.serve, instanceAt_modify, if_pos same, isOwn] at isServer
      cases isServer
      intro third later apart isLater
      rw [Table.serve, instanceAt_modify, if_neg (same ▸ apart)] at isLater
      exact (unseen third later (same ▸ apart) isLater).resolve_left List.not_mem_nil
    · exact sound.alone_changes (changes_modify fun _ => rfl) same isServer serves

theorem Sound.put (sound : table.Sound) {left : Option Process}
    (none : left.bind Process.instance? = none) : (table.put pid left).Sound where
  shown other process present isSome := by
    by_cases same : other = pid
    · subst same
      have isLeft : (table.put other left).processes other = left := Function.update_self ..
      rw [← isLeft, present] at none
      rw [show process.instance? = Option.none from none] at isSome
      cases isSome
    · have stands : (table.put pid left).processes other = table.processes other :=
        Function.update_of_ne same ..
      exact sound.shown other process (stands.symm.trans present) isSome
  dated other own isOwn := by
    rw [instanceAt_put] at isOwn
    split at isOwn
    · rw [none] at isOwn
      cases isOwn
    · exact sound.dated other own isOwn
  alone other own isOwn serves := by
    by_cases same : other = pid
    · rw [instanceAt_put, if_pos same, none] at isOwn
      cases isOwn
    · exact sound.alone_changes (changes_put none) same isOwn serves

end Table

end Tables

/-- Where a program is: it has not begun or has ended, it waits, with the pids that its look has
not come to if it has found none so far, or it serves. -/
inductive Token where
  | absent
  | waiting (pid : Pid) (own : Instance) (unseen : Option (List Pid))
  | serving (pid : Pid)

namespace Token

def pid : Token → Option Pid
  | .absent => none
  | .waiting pid _ _ => some pid
  | .serving pid => some pid

def Apart (one other : Token) : Prop :=
  ∀ pid, one.pid = some pid → other.pid ≠ some pid

def Known : Token → Table → Prop
  | .absent, _ => True
  | .waiting pid own unseen, table =>
      table.instanceAt pid = some own ∧ own.serving = false ∧
        ∀ rest, unseen = some rest → table.Unseen pid own.looked rest
  | .serving pid, table => ∃ own, table.instanceAt pid = some own

variable {token one other : Token} {before after : Table} {caller : Pid}

theorem Apart.symm (apart : one.Apart other) : other.Apart one :=
  fun pid isOther isOne => apart pid isOne isOther

theorem Known.changes (known : token.Known before) (sound : before.Sound)
    (changes : Table.Changes caller before after) (apart : token.pid ≠ some caller) :
    token.Known after := by
  cases token with
  | absent => trivial
  | waiting pid own unseen =>
      rcases known with ⟨isOwn, idle, stands⟩
      have present := changes.others pid fun same => apart (congrArg some same)
      refine ⟨present.trans isOwn, idle, fun rest isRest => ?_⟩
      exact (stands rest isRest).changes (sound.dated pid own isOwn).2 changes
  | serving pid =>
      rcases known with ⟨own, isOwn⟩
      exact ⟨own, (changes.others pid fun same => apart (congrArg some same)).trans isOwn⟩

theorem Known.churns (known : token.Known before) (sound : before.Sound)
    (churns : before.Churns after) : token.Known after := by
  cases token with
  | absent => trivial
  | waiting pid own unseen =>
      rcases known with ⟨isOwn, idle, stands⟩
      have changes : Table.Changes pid before after := churns.changes
      refine ⟨churns.instanceAt.trans isOwn, idle, fun rest isRest => ?_⟩
      exact (stands rest isRest).changes (sound.dated pid own isOwn).2 changes
  | serving pid =>
      rcases known with ⟨own, isOwn⟩
      exact ⟨own, churns.instanceAt.trans isOwn⟩

theorem Known.ne_of_absent {pid : Pid} (known : token.Known before)
    (absent : before.instanceAt pid = none) : token.pid ≠ some pid := by
  rintro isPid
  cases token with
  | absent => cases isPid
  | waiting other own unseen =>
      cases isPid
      cases absent.symm.trans known.1
  | serving other =>
      cases isPid
      rcases known with ⟨own, isOwn⟩
      cases absent.symm.trans isOwn

end Token

section Rules

variable {ι α β : Type} [DecidableEq ι] {good : Token → α → Prop} {token : Token} {pid : Pid}
  {own : Instance} {unseen : Option (List Pid)}

/-- What a program keeps as long as it lives. -/
abbrev Lives (ι : Type) [DecidableEq ι] (good : Token → α → Prop) (token : Token)
    (program : Prog Kernel α) : Prop :=
  program.Lives machine stops (Joint (ι := ι) Table.Sound Token.Known Token.Apart) good token

/-- A process that is there asks for something, or is stopped. -/
theorem lives_ask {request : Request} {next : request.Answer → Prog Kernel α}
    (isPid : token.pid = some pid)
    (step : ∀ table answer after, table.Sound → token.Known table →
      Answered table (.ask pid request) answer after →
      ∃ token', token'.pid = some pid ∧ after.Sound ∧ token'.Known after ∧
        Table.Changes pid table after ∧ Lives ι good token' (next answer)) :
    Lives ι good token ((ask pid request).bind next) := by
  have others : ∀ before middle after (token' : Token), before.Sound → before.Churns middle →
      Table.Changes pid middle after → (∀ other, token'.pid = some other → other = pid) →
      ∀ other, token.Apart other → Token.Known other before →
        token'.Apart other ∧ Token.Known other after := by
    intro before middle after token' sound churns changes same other apart known
    have free : other.pid ≠ some pid := apart pid isPid
    refine ⟨fun third isThird => same third isThird ▸ free, ?_⟩
    exact (known.churns sound churns).changes (sound.churns churns) changes free
  apply Prog.Lives.call_joint fun _ _ => Token.Apart.symm
  · rintro before _ sound known ⟨middle, churns, left, none, rfl⟩
    refine ⟨.absent, (sound.churns churns).put none, trivial, ?_⟩
    exact others before middle _ .absent sound churns (Table.changes_put none) nofun
  · rintro before answer after sound known ⟨middle, churns, answered⟩
    rcases step middle answer after (sound.churns churns) (known.churns sound churns) answered with
      ⟨token', isPid', sound', known', changes, lives⟩
    refine ⟨token', sound', known', ?_, lives⟩
    apply others before middle after token' sound churns changes
    exact fun other isOther => Option.some.inj (isOther.symm.trans isPid')

/-- A question may teach the process something. -/
theorem lives_quiet {request : Request} {next : request.Answer → Prog Kernel α}
    (isPid : token.pid = some pid)
    (still : ∀ table answer after, Answered table (.ask pid request) answer after → after = table)
    (step : ∀ table answer, table.Sound → token.Known table →
      Answered table (.ask pid request) answer table →
      ∃ token', token'.pid = some pid ∧ token'.Known table ∧ Lives ι good token' (next answer)) :
    Lives ι good token ((ask pid request).bind next) := by
  apply lives_ask isPid
  intro table answer after sound known answered
  have same := still table answer after answered
  subst after
  rcases step table answer sound known answered with ⟨token', isPid', known', lives⟩
  have changes : Table.Changes pid table table :=
    ⟨fun _ _ => rfl, fun own isOwn => .inl ⟨own, isOwn, rfl⟩⟩
  exact ⟨token', isPid', sound, known', changes, lives⟩

/-- A request that has nothing to do with the processes. -/
theorem lives_aside {request : Request} {next : request.Answer → Prog Kernel α}
    (isPid : token.pid = some pid)
    (still : ∀ table answer after, Answered table (.ask pid request) answer after → after = table)
    (later : ∀ answer, Lives ι good token (next answer)) :
    Lives ι good token ((ask pid request).bind next) :=
  lives_quiet isPid still fun _ answer _ known _ => ⟨token, isPid, known, later answer⟩

theorem lives_exitNow {rest : Unit → Prog Kernel α} (isPid : token.pid = some pid) (code : Int) :
    Lives ι good token ((exitNow pid code).bind rest) := by
  apply lives_ask isPid
  nofun

end Rules

section Looks

variable {ι : Type} [DecidableEq ι] {self pid : Pid} {own : Instance} {unseen : Option (List Pid)}
  {rest : List Pid} {table : Table}

/-- A pid at which there is no instance is behind the look. -/
theorem Table.Unseen.pass {looked : Nat} (stands : table.Unseen self looked (pid :: rest))
    (absent : table.instanceAt pid = none) : table.Unseen self looked rest := by
  intro other later apart isLater
  refine (stands other later apart isLater).imp_left fun member => ?_
  refine List.mem_of_ne_of_mem ?_ member
  rintro rfl
  cases absent.symm.trans isLater

/-- A process that does not show that it is an instance is none. -/
theorem Table.Sound.absent (sound : table.Sound)
    (hides : ∀ process, table.processes pid = some process →
      ¬(process.comm = COMM ∧ "--ctl" ∉ argumentsOf process.cmdline)) :
    table.instanceAt pid = none := by
  cases present : table.processes pid with
  | none => rw [Table.instanceAt, present, Option.bind_none]
  | some process =>
      rw [Table.instanceAt, present, Option.bind_some, ← Option.not_isSome_iff_eq_none]
      intro isSome
      exact hides process present (sound.shown pid process present isSome).2

/-- A look that has come to a pid. -/
def pass (pid : Pid) : Option (List Pid) → Option (List Pid)
  | some (head :: rest) => if head = pid then some rest else some (head :: rest)
  | unseen => unseen

theorem known_pass (known : (Token.waiting self own unseen).Known table)
    (absent : table.instanceAt pid = none) :
    (Token.waiting self own (pass pid unseen)).Known table := by
  rcases known with ⟨isOwn, idle, stands⟩
  refine ⟨isOwn, idle, fun rest isRest => ?_⟩
  unfold pass at isRest
  split at isRest
  case h_1 head later =>
    have ahead := stands _ rfl
    split at isRest
    case isTrue same =>
      cases isRest
      subst same
      exact ahead.pass absent
    case isFalse =>
      cases isRest
      exact ahead
  case h_2 => exact stands rest isRest

theorem lives_isInjectorProcess (high : 1 < pid) :
    Lives ι (fun token isInjector =>
        token = .waiting self own (if isInjector then unseen else pass pid unseen))
      (.waiting self own unseen) (isInjectorProcess self pid) := by
  unfold isInjectorProcess
  rw [if_neg (Int.not_le.mpr high)]
  apply lives_quiet rfl
  · rintro table answer after ⟨_, rfl⟩
    rfl
  · rintro table comm sound known ⟨isComm, _⟩
    cases present : table.processes pid with
    | none =>
        rw [present] at isComm
        subst isComm
        refine ⟨.waiting self own (pass pid unseen), rfl, ?_, .pure rfl⟩
        apply known_pass known
        exact sound.absent fun process isProcess => absurd (present.symm.trans isProcess) nofun
    | some process =>
        rw [present] at isComm
        subst isComm
        by_cases named : (asBytes "injector").isPrefixOf (process.comm.take 63) = true
        · refine ⟨.waiting self own unseen, rfl, known, .pure ?_⟩
          rw [named]
          rfl
        · refine ⟨.waiting self own (pass pid unseen), rfl, ?_, .pure ?_⟩
          · apply known_pass known
            apply sound.absent
            rintro _ isProcess ⟨isComm, _⟩
            cases present.symm.trans isProcess
            rw [isComm] at named
            exact named (by decide +kernel)
          · rw [Bool.not_eq_true] at named
            rw [named]
            rfl

theorem lives_commandLine :
    Lives ι (fun token arguments => token =
        .waiting self own (if arguments.contains "--ctl" then pass pid unseen else unseen))
      (.waiting self own unseen) (commandLine self pid) := by
  apply lives_quiet rfl
  · rintro table answer after ⟨_, rfl⟩
    rfl
  · rintro table cmdline sound known ⟨isCmdline, _⟩
    cases present : table.processes pid with
    | none =>
        rw [present] at isCmdline
        subst isCmdline
        exact ⟨.waiting self own unseen, rfl, known, .pure rfl⟩
    | some process =>
        rw [present] at isCmdline
        subst isCmdline
        by_cases controls : (argumentsOf process.cmdline).contains "--ctl" = true
        · refine ⟨.waiting self own (pass pid unseen), rfl, ?_, .pure ?_⟩
          · apply known_pass known
            apply sound.absent
            rintro _ isProcess ⟨_, plain⟩
            cases present.symm.trans isProcess
            exact plain (List.contains_iff_mem.mp controls)
          · rw [if_pos controls]
        · refine ⟨.waiting self own unseen, rfl, known, .pure ?_⟩
          rw [if_neg controls]

theorem lives_isDaemonAlive (high : 1 < pid) (apart : pid ≠ self) :
    Lives ι (fun token alive =>
        token = .waiting self own (if alive then unseen else pass pid unseen))
      (.waiting self own unseen) (isDaemonAlive self pid) := by
  unfold isDaemonAlive
  rw [if_neg (not_or.mpr ⟨Int.not_le.mpr high, apart⟩)]
  apply Prog.Lives.bind (lives_isInjectorProcess high)
  rintro _ isInjector rfl
  cases isInjector with
  | false => exact .pure rfl
  | true =>
      apply Prog.Lives.bind lives_commandLine
      rintro _ arguments rfl
      apply Prog.Lives.pure
      cases arguments.contains "--ctl" <;> rfl

/-- The pids that a look at these names asks about. -/
def candidates (self : Pid) (names : List (List UInt8)) : List Pid :=
  (names.filterMap pidOf).filter fun pid => 1 < pid ∧ pid ≠ self

theorem lives_look {name : List UInt8} {names : List (List UInt8)} {found : Option Pid}
    (ready : found = none → unseen = some (candidates self (name :: names))) :
    Lives ι (fun token result => ∃ unseen', token = .waiting self own unseen' ∧
        (result = none → unseen' = some (candidates self names)))
      (.waiting self own unseen) (look self found name) := by
  unfold look
  cases isPid : pidOf name with
  | none =>
      refine .pure ⟨unseen, rfl, fun isNone => (ready isNone).trans ?_⟩
      rw [candidates, List.filterMap_cons_none isPid, candidates]
  | some pid =>
      by_cases asked : 1 < pid ∧ pid ≠ self
      · apply Prog.Lives.bind (lives_isDaemonAlive asked.1 asked.2)
        rintro _ alive rfl
        cases alive with
        | true => exact .pure ⟨unseen, rfl, nofun⟩
        | false =>
            have ahead : candidates self (name :: names) = pid :: candidates self names := by
              simp [candidates, isPid, asked]
            refine .pure ⟨pass pid unseen, rfl, fun isNone => ?_⟩
            rw [ready isNone, ahead, pass, if_pos rfl]
      · have skips : isDaemonAlive self pid = .pure false := by
          unfold isDaemonAlive
          rw [not_and_or, Int.not_lt, not_not] at asked
          rw [if_pos asked]
          rfl
        have same : candidates self (name :: names) = candidates self names := by
          rw [candidates, List.filterMap_cons_some isPid,
            List.filter_cons_of_neg (by simpa using asked), candidates]
        dsimp only
        rw [skips]
        exact .pure ⟨unseen, rfl, fun isNone => (ready isNone).trans (congrArg some same)⟩

theorem lives_looks {names : List (List UInt8)} {found : Option Pid}
    (ready : found = none → unseen = some (candidates self names)) :
    Lives ι (fun token result => ∃ unseen', token = .waiting self own unseen' ∧
        (result = none → unseen' = some []))
      (.waiting self own unseen) (names.foldlM (look self) found) := by
  induction names generalizing found unseen with
  | nil => exact .pure ⟨unseen, rfl, ready⟩
  | cons name names ih =>
      rw [List.foldlM_cons]
      apply Prog.Lives.bind (lives_look ready)
      rintro _ found ⟨unseen', rfl, ready⟩
      exact ih ready

/-- A look that has found none has come to every instance that had started when it began. -/
theorem lives_findDaemonPid :
    Lives ι (fun token result => ∃ own' unseen', token = .waiting self own' unseen' ∧
        (result = none → unseen' = some []))
      (.waiting self own unseen) (findDaemonPid self none) := by
  apply lives_ask rfl
  rintro table _ _ sound ⟨isOwn, idle, _⟩ ⟨⟨names, rfl, complete⟩, rfl⟩
  refine ⟨.waiting self { own with looked := table.clock } (some (candidates self names)), rfl,
    sound.beginLook isOwn idle, ⟨?_, idle, ?_⟩, Table.changes_beginLook, ?_⟩
  · rw [Table.beginLook, Table.instanceAt_tick, Table.instanceAt_modify, if_pos rfl, isOwn,
      Option.map_some]
  · rintro _ ⟨⟩ other later apart isLater
    rw [Table.beginLook, Table.instanceAt_tick, Table.instanceAt_modify, if_neg apart] at isLater
    rcases Option.bind_eq_some_iff.mp isLater with ⟨process, present, isLater⟩
    rcases complete other (by rw [present]; nofun) with ⟨name, listed, isPid⟩
    have shown := sound.shown other process present (by rw [isLater]; rfl)
    left
    rw [candidates, List.mem_filter, decide_eq_true_eq]
    exact ⟨List.mem_filterMap.mpr ⟨name, listed, isPid⟩, shown.1, apart⟩
  · apply Prog.Lives.mono (lives_looks fun _ => rfl)
    rintro token result ⟨unseen', isToken, ready⟩
    exact ⟨_, unseen', isToken, ready⟩

theorem lives_awaitPrevious (deadline rounds : Nat) :
    Lives ι (fun _ _ => True) (.waiting self own unseen) (awaitPrevious self deadline rounds) := by
  induction rounds generalizing own unseen with
  | zero => exact .pure trivial
  | succ rounds ih =>
      apply Prog.Lives.bind lives_findDaemonPid
      rintro _ found ⟨own', unseen', rfl, ready⟩
      cases found with
      | none =>
          apply lives_ask rfl
          rintro table _ _ sound ⟨isOwn, idle, stands⟩ rfl
          refine ⟨.serving self, rfl, sound.serve isOwn (stands [] (ready rfl)), ?_,
            Table.changes_modify fun _ => rfl, ?_⟩
          · rw [Token.Known, Table.serve, Table.instanceAt_modify, if_pos rfl, isOwn]
            exact ⟨_, rfl⟩
          · rw [← Prog.bind_pure' (exitNow self 0)]
            exact lives_exitNow rfl 0
      | some found =>
          apply lives_aside rfl fun _ _ _ => id
          intro now
          dsimp only
          split
          · exact lives_exitNow rfl 1
          · exact lives_aside rfl (fun _ _ _ => id) fun _ => ih

theorem lives_main (launch : Launch) (rounds : Nat) :
    Lives ι (fun _ _ => True) .absent (main launch rounds) := by
  apply Prog.Lives.call_joint fun _ _ => Token.Apart.symm
  · rintro before after sound _ ⟨middle, churns, rfl⟩
    refine ⟨.absent, sound.churns churns, trivial, fun other _ known => ⟨nofun, ?_⟩⟩
    exact known.churns sound churns
  · rintro before pid _ sound _ ⟨middle, churns, high, free, rfl⟩
    have begun := sound.churns churns
    refine ⟨.waiting pid { born := middle.clock, looked := middle.clock } none,
      begun.begin high launch, ⟨?_, rfl, nofun⟩, ?_, ?_⟩
    · rw [Table.begin, Table.instanceAt_tick, Table.instanceAt_put, if_pos rfl]
      rfl
    · rintro other _ known
      have stands := known.churns sound churns
      have apart := stands.ne_of_absent free
      refine ⟨?_, stands.changes begun (Table.changes_begin launch) apart⟩
      rintro _ ⟨⟩
      exact apart
    · apply lives_aside rfl fun _ _ _ => id
      intro verified
      dsimp only
      split
      · apply lives_aside rfl fun _ _ _ => id
        exact fun _ => lives_exitNow rfl 1
      · apply lives_aside rfl fun _ _ _ => id
        exact fun started => lives_awaitPrevious _ rounds

end Looks

section Runs

variable {ι : Type} [DecidableEq ι] {launches : ι → Launch} {rounds : ι → Nat}
  {pool : Pool Kernel.mortal ι (Option Unit) Table} {pid other : Pid}

omit [DecidableEq ι] in
theorem sound_empty : ({} : Table).Sound where
  shown := nofun
  dated := nofun
  alone := nofun

/-- However many processes run `main`, whenever they start and are stopped, and in whatever order
they look through `/proc`: no two of them serve at the same time. -/
theorem one_daemon
    (reached : (Pool.system (machine.mortal stops) (launched launches rounds)).Reachable pool)
    (first : pool.shared.Serves pid) (second : pool.shared.Serves other) : pid = other := by
  rcases reached.exists_run with ⟨_, steps, rfl, run⟩
  have joint : Joint (ι := ι) Table.Sound Token.Known Token.Apart (fun _ => .absent)
      (launched launches rounds).shared :=
    ⟨sound_empty, fun _ => trivial, fun _ _ _ => nofun⟩
  have lives : ∀ i, Lives ι (fun _ _ => True) .absent (main (launches i) (rounds i)) :=
    fun i => lives_main (launches i) (rounds i)
  rcases Pool.invariant_of_keeps run joint lives with ⟨tokens, later, _, _⟩
  exact later.common.eq_of_serves first second

/-- Two processes, and a clock that goes with their looks. -/
def answerTwo : (request : Call) → Table → Option (Option request.Answer × Table)
  | .exec launch, table =>
      if table.instanceAt 100 = none then
        some (some 100, table.begin 100 launch)
      else if table.instanceAt 101 = none then
        some (some 101, table.begin 101 launch)
      else
        none
  | .ask self .readDir, table =>
      some (some (some [asBytes "100", asBytes "self", asBytes "101"]), table.beginLook self)
  | .ask _ (.comm pid), table => some (some ((table.processes pid).map Process.comm), table)
  | .ask _ (.cmdline pid), table => some (some ((table.processes pid).map Process.cmdline), table)
  | .ask self .serve, table => some (some (), table.serve self)
  | .ask self (.exit _), table => some (none, table.put self none)
  | .ask _ .verifyModule, table => some (some true, table)
  | .ask _ .now, table => some (some (table.clock * 3000), table)
  | .ask _ .restoreProp, table | .ask _ (.sleep _), table => some (some (), table)

/-- No other pid is in use. -/
def Table.OfTwo (table : Table) : Prop :=
  ∀ pid, table.processes pid ≠ none → pid = 100 ∨ pid = 101

theorem Table.Churns.refl (table : Table) : table.Churns table :=
  ⟨rfl, fun _ _ _ => Iff.rfl⟩

theorem Table.OfTwo.put {table : Table} (ofTwo : table.OfTwo) {process : Option Process}
    (among : process ≠ none → pid = 100 ∨ pid = 101) : (table.put pid process).OfTwo := by
  intro third present
  unfold Table.put at present
  dsimp only at present
  by_cases same : third = pid
  · subst same
    rw [Function.update_self] at present
    exact among present
  · rw [Function.update_of_ne same] at present
    exact ofTwo third present

theorem Table.OfTwo.modify {table : Table} (ofTwo : table.OfTwo) (change : Instance → Instance) :
    (table.modify pid change).OfTwo := by
  apply ofTwo.put
  intro present
  apply ofTwo pid
  intro absent
  rw [absent] at present
  exact present rfl

theorem sound_answerTwo (request : Call) (table : Table) (answer : Option request.Answer)
    (after : Table) (ofTwo : table.OfTwo)
    (responded : answerTwo request table = some (answer, after)) :
    (machine.mortal stops).Step table request answer after ∧ after.OfTwo := by
  have still := Table.Churns.refl table
  cases request with
  | exec launch =>
      unfold answerTwo at responded
      dsimp only at responded
      split at responded
      case isTrue free =>
        cases responded
        exact ⟨⟨table, still, show (1 : Int) < 100 by decide, free, rfl⟩,
          ofTwo.put fun _ => .inl rfl⟩
      case isFalse =>
        split at responded
        case isFalse => cases responded
        case isTrue free =>
          cases responded
          exact ⟨⟨table, still, show (1 : Int) < 101 by decide, free, rfl⟩,
            ofTwo.put fun _ => .inr rfl⟩
  | ask self request =>
      cases request with
      | readDir =>
          cases responded
          refine ⟨⟨table, still, ⟨_, rfl, ?_⟩, rfl⟩, ofTwo.modify _⟩
          intro pid present
          rcases ofTwo pid present with rfl | rfl
          · exact ⟨asBytes "100", by simp, by decide +kernel⟩
          · exact ⟨asBytes "101", by simp, by decide +kernel⟩
      | comm | cmdline =>
          cases responded
          exact ⟨⟨table, still, rfl, rfl⟩, ofTwo⟩
      | serve =>
          cases responded
          exact ⟨⟨table, still, rfl⟩, ofTwo.modify _⟩
      | exit code =>
          cases responded
          exact ⟨⟨table, still, none, rfl, rfl⟩, ofTwo.put fun present => absurd rfl present⟩
      | verifyModule | now | restoreProp | sleep =>
          cases responded
          exact ⟨⟨table, still, rfl⟩, ofTwo⟩

/-- The command line of the daemon. -/
def launchA : Launch where
  cmdline := asBytes "./bin/injector" ++ 0 :: asBytes "/data/adb/modules/znn" ++ [0]
  plain := by decide +kernel

/-- Of two that start at the same time the first to look gives up, and the other serves. -/
theorem one_daemon_of_two : ∃ pool : Pool Kernel.mortal Bool (Option Unit) Table,
    pool.shared.Serves 101 ∧ ∀ pid, pool.shared.Serves pid → pid = 101 := by
  let start := launched (fun _ : Bool => launchA) fun _ => 2
  have ran : ((List.foldlM (Pool.turn answerTwo) start
      [false, true, false, true, false, true, false, false, false, false, false, true, true,
        true]).map
      fun pool => (pool.shared.instanceAt 101).any Instance.serving) = some true := by
    decide +kernel
  rcases Option.map_eq_some_iff.mp ran with ⟨pool, ran, serves⟩
  have begins : start.shared.OfTwo := fun _ present => absurd rfl present
  have reached := Pool.reachable_turns_within sound_answerTwo _ (.initial (rfl : start = start))
    begins ran
  have isServed : pool.shared.Serves 101 := by
    rw [Option.any_eq_true] at serves
    exact serves
  exact ⟨pool, isServed, fun pid first => one_daemon reached first isServed⟩

end Runs

end Instances

end Znn.Injector
