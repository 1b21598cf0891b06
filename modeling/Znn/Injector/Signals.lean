import Znn.Interaction.Transcript
import Znn.Injector.Silence
import Znn.Injector.Reports

/-!
# The signal of an interrupted process

An interrupt is answered by whatever stop comes first, and that may be the delivery of a
signal. The process gets its signal back only if the request that lets it run carries it. The
statements are about transcripts: what the system answered after the stop decides which
request comes next.
-/

namespace Znn.Injector

open Interaction PtraceOps Trace Mode

/-- The signal carried by the first request in the log that lets the process run. -/
def nextResume (pid : Pid) (log : List Event) : Option (Option Int) :=
  log.findSome? fun event =>
    match event with
    | .resumed target signal | .detached target signal =>
        if target = pid then some signal else none
    | _ => none

/-- No wait for the process has reported a status. -/
def Unstopped (pid : Pid) (transcript : Transcript) : Prop :=
  ∀ raw, stopOf pid raw ∉ transcript

/-- No request of the transcript gives a signal to anybody. -/
def Withholds (transcript : Transcript) : Prop :=
  ∀ exchange ∈ transcript, exchange.1.carries = none

/-- Whether the request of the exchange has been granted: registers or memory that were asked
for have been read, memory that was written has been written. -/
def granted : Exchange Sys → Bool
  | ⟨.getRegset _ _, filled⟩ => filled.isSome
  | ⟨.peekData _ _, word⟩ => word.isSome
  | ⟨.pokeData _ _ _, ok⟩ => ok
  | _ => true

abbrev Granted (exchange : Exchange Sys) : Prop :=
  granted exchange = true

section Rules

variable {pid : Pid} {signal : Option Int} {first second transcript : Transcript}

theorem eventsOf_append (first second : Transcript) :
    eventsOf (first ++ second) = eventsOf first ++ eventsOf second :=
  List.flatMap_append

theorem Unstopped.append (left : Unstopped pid first) (right : Unstopped pid second) :
    Unstopped pid (first ++ second) := by
  intro raw present
  rcases List.mem_append.mp present with inFirst | inSecond
  · exact left raw inFirst
  · exact right raw inSecond

theorem Unstopped.cons {exchange : Exchange Sys} (other : ∀ raw, exchange ≠ stopOf pid raw)
    (rest : Unstopped pid transcript) : Unstopped pid (exchange :: transcript) := by
  intro raw present
  rcases List.mem_cons.mp present with same | inRest
  · exact other raw same.symm
  · exact rest raw inRest

theorem Unstopped.nil : Unstopped pid [] :=
  fun _ => List.not_mem_nil

theorem Withholds.append (left : Withholds first) (right : Withholds second) :
    Withholds (first ++ second) := by
  intro exchange present
  rcases List.mem_append.mp present with inFirst | inSecond
  · exact left exchange inFirst
  · exact right exchange inSecond

theorem Withholds.nil : Withholds [] :=
  fun _ present => absurd present List.not_mem_nil

/-- Where no request gives a signal, the next one does not. -/
theorem Withholds.nextResume (withholds : Withholds transcript) (signal : Int) :
    nextResume pid (eventsOf transcript) ≠ some (some signal) := by
  intro carried
  rcases List.exists_of_findSome?_eq_some carried with ⟨event, present, gives⟩
  rcases List.mem_flatMap.mp present with ⟨⟨request, answer⟩, inTranscript, happened⟩
  have none := withholds _ inTranscript
  cases request with
  | cont target given | detach target given =>
      cases List.mem_singleton.mp happened
      change given = Option.none at none
      subst none
      dsimp only at gives
      split at gives <;> cases gives
  | waitpid target =>
      cases answer with
      | status child raw =>
          cases List.mem_singleton.mp happened
          cases gives
      | _ => exact absurd happened List.not_mem_nil
  | listen target | setRegset target bytes =>
      cases answer with
      | true =>
          cases List.mem_singleton.mp happened
          cases gives
      | false => exact absurd happened List.not_mem_nil
  | note mark =>
      cases List.mem_singleton.mp happened
      cases mark <;> cases gives
  | _ => exact absurd happened List.not_mem_nil

end Rules

theorem unstopped_of_silent {pid : Pid} {transcript : Transcript}
    (silent : ∀ exchange ∈ transcript, exchange.1.silent) : Unstopped pid transcript :=
  fun _ present => (silent _ present).2 pid rfl

theorem withholds_of_silent {transcript : Transcript}
    (silent : ∀ exchange ∈ transcript, exchange.1.silent) : Withholds transcript :=
  fun exchange present => (silent exchange present).1

section Memory

variable {pid : Pid}

/-- A call on the memory of a process. -/
def Touches (exchange : Exchange Sys) : Prop :=
  match exchange.1 with
  | .peekData _ _ | .pokeData _ _ _ => True
  | _ => False

/-- A transcript of calls on memory, and whether all of them were granted. -/
def Touched (success : Prop) (transcript : Transcript) : Prop :=
  (∀ exchange ∈ transcript, Touches exchange) ∧
    (success ↔ ∀ exchange ∈ transcript, Granted exchange)

namespace Touched

variable {success : Prop} {exchange : Exchange Sys} {first second transcript : Transcript}

theorem nil (holds : success) : Touched success [] :=
  ⟨by simp, by simp [holds]⟩

theorem failed (touches : Touches exchange) (refused : ¬Granted exchange) (fails : ¬success) :
    Touched success [exchange] :=
  ⟨by simpa using touches, by simp [refused, fails]⟩

theorem cons (rest : Touched success transcript) (touches : Touches exchange)
    (granted : Granted exchange) : Touched success (exchange :: transcript) :=
  ⟨by simpa [touches] using rest.1, by
    rw [rest.2, List.forall_mem_cons]
    exact (and_iff_right granted).symm⟩

theorem append (left : Touched True first) (right : Touched success second) :
    Touched success (first ++ second) := by
  rcases left with ⟨touches, granted⟩
  constructor
  · intro exchange present
    rcases List.mem_append.mp present with inFirst | inSecond
    · exact touches exchange inFirst
    · exact right.1 exchange inSecond
  · rw [right.2]
    simp only [List.mem_append]
    constructor
    · rintro holds exchange (inFirst | inSecond)
      · exact granted.mp trivial exchange inFirst
      · exact holds exchange inSecond
    · exact fun holds exchange inSecond => holds exchange (.inr inSecond)

theorem mono {other : Prop} (touched : Touched success transcript) (same : success ↔ other) :
    Touched other transcript :=
  ⟨touched.1, same.symm.trans touched.2⟩

theorem unstopped (touched : Touched success transcript) : Unstopped pid transcript :=
  fun _ present => touched.1 _ present

theorem withholds (touched : Touched success transcript) : Withholds transcript := by
  intro exchange present
  have touches := touched.1 exchange present
  rcases exchange with ⟨request, answer⟩
  cases request <;> first | exact touches.elim | rfl

theorem eventsOf (touched : Touched success transcript) : eventsOf transcript = [] := by
  refine List.flatMap_eq_nil_iff.mpr fun exchange present => ?_
  have touches := touched.1 exchange present
  rcases exchange with ⟨request, answer⟩
  cases request <;> first | exact touches.elim | rfl

end Touched

variable [Usize]

theorem touched_readFrom (address length fuel done : Nat) (buffer : List UInt8) :
    (readFrom pid address length fuel done buffer).Says fun result transcript =>
      Touched result.isSome transcript := by
  induction fuel generalizing done buffer with
  | zero => exact Touched.nil rfl
  | succ fuel ih =>
      unfold readFrom
      split
      · intro word
        cases word with
        | none => exact Touched.failed trivial (by simp [granted]) (by simp)
        | some word =>
            apply Prog.Says.mono (ih _ _)
            intro result transcript touched
            exact touched.cons trivial rfl
      · exact Touched.nil rfl

theorem touched_writeFrom (address : Nat) (buffer : List UInt8) (fuel done : Nat) :
    (writeFrom pid address buffer fuel done).Says fun ok transcript =>
      Touched (ok = true) transcript := by
  induction fuel generalizing done with
  | zero => exact Touched.nil rfl
  | succ fuel ih =>
      unfold writeFrom
      split
      · dsimp only
        split
        · intro existing
          cases existing with
          | none => exact Touched.failed trivial (by simp [granted]) (by simp)
          | some existing =>
              intro ok
              cases ok with
              | false =>
                  refine Touched.cons (Touched.failed ?_ ?_ ?_) ?_ ?_
                  · trivial
                  · simp [granted]
                  · simp
                  · trivial
                  · rfl
              | true =>
                  apply Prog.Says.mono (ih _)
                  intro result transcript touched
                  refine Touched.cons (touched.cons ?_ ?_) ?_ ?_ <;> trivial
        · intro ok
          cases ok with
          | false => exact Touched.failed trivial (by simp [granted]) (by simp)
          | true =>
              apply Prog.Says.mono (ih _)
              intro result transcript touched
              exact touched.cons trivial rfl
      · exact Touched.nil rfl

/-- A breakpoint is set exactly when every read and write it takes is granted. -/
theorem touched_setEntryBreakpoint {tracee : Tracee} (known : tracee.arch ≠ .unknown)
    (thumb : Bool) :
    (setEntryBreakpoint pid tracee thumb).Says fun armed transcript =>
      Touched armed.isSome transcript := by
  have fits : ¬((tracee.arch.breakpoint thumb).isEmpty ||
      decide ((tracee.arch.breakpoint thumb).length > INSTRUCTION_CAPACITY)) = true := by
    cases arch : tracee.arch <;> cases thumb <;> first | exact absurd arch known | decide
  unfold setEntryBreakpoint
  dsimp only
  rw [if_neg fits, Prog.bind_eq, Prog.says_bind]
  apply Prog.Says.mono (touched_readFrom _ _ _ _ _)
  intro original read touchedRead
  cases original with
  | none =>
      change Touched _ (read ++ [])
      rw [List.append_nil]
      exact touchedRead
  | some original =>
      apply Prog.says_bind.mpr
      apply Prog.Says.mono (touched_writeFrom _ _ _ _)
      intro ok written touchedWrite
      have first := touchedRead.mono (iff_true_intro rfl)
      cases ok with
      | false => exact first.append (by simpa using touchedWrite)
      | true => exact first.append (by simpa using touchedWrite)

end Memory

/-- The transcript holds one stop of the process; `post` speaks of what comes before it, of its
status, and of what comes after it. -/
def StopsOnce (pid : Pid) (post : Transcript → RawStatus → Transcript → Prop)
    (transcript : Transcript) : Prop :=
  ∃ before raw after, transcript = before ++ stopOf pid raw :: after ∧ Unstopped pid before ∧
    Unstopped pid after ∧ post before raw after

namespace StopsOnce

variable {pid : Pid} {post weaker : Transcript → RawStatus → Transcript → Prop}
  {transcript : Transcript}

theorem prepend {first : Transcript} (quiet : Unstopped pid first)
    (rest : StopsOnce pid post transcript)
    (implies : ∀ before raw after, post before raw after → weaker (first ++ before) raw after) :
    StopsOnce pid weaker (first ++ transcript) := by
  rcases rest with ⟨before, raw, after, rfl, quietBefore, quietAfter, holds⟩
  refine ⟨first ++ before, raw, after, by simp, quiet.append quietBefore, quietAfter, ?_⟩
  exact implies before raw after holds

theorem cons {exchange : Exchange Sys} (other : ∀ raw, exchange ≠ stopOf pid raw)
    (rest : StopsOnce pid post transcript)
    (implies : ∀ before raw after, post before raw after →
      weaker (exchange :: before) raw after) :
    StopsOnce pid weaker (exchange :: transcript) :=
  prepend (Unstopped.nil.cons other) rest implies

theorem append {more : Transcript} (first : StopsOnce pid post transcript)
    (quiet : Unstopped pid more)
    (implies : ∀ before raw after, post before raw after → weaker before raw (after ++ more)) :
    StopsOnce pid weaker (transcript ++ more) := by
  rcases first with ⟨before, raw, after, rfl, quietBefore, quietAfter, holds⟩
  refine ⟨before, raw, after ++ more, by simp, quietBefore, quietAfter.append quiet, ?_⟩
  exact implies before raw after holds

/-- The stop is the only one, so it splits the transcript in one way. -/
theorem split {earlier later : Transcript} {raw : RawStatus}
    (once : StopsOnce pid post (earlier ++ stopOf pid raw :: later)) : post earlier raw later := by
  rcases once with ⟨before, other, after, same, quietBefore, quietAfter, holds⟩
  suffices parts : earlier = before ∧ raw = other ∧ later = after by
    rcases parts with ⟨rfl, rfl, rfl⟩
    exact holds
  clear holds
  induction earlier generalizing before with
  | nil =>
      cases before with
      | nil =>
          simpa [stopOf] using same
      | cons exchange before =>
          rw [List.nil_append, List.cons_append] at same
          exact absurd (by simp [(List.cons.inj same).1]) (quietBefore raw)
  | cons exchange earlier ih =>
      cases before with
      | nil =>
          rw [List.nil_append, List.cons_append] at same
          have stopLater : stopOf pid raw ∈ after := by
            rw [← (List.cons.inj same).2]
            simp
          exact absurd stopLater (quietAfter raw)
      | cons head before =>
          rw [List.cons_append, List.cons_append] at same
          rcases List.cons.inj same with ⟨rfl, rest⟩
          have quiet : Unstopped pid before :=
            fun status present => quietBefore status (List.mem_cons_of_mem _ present)
          rcases ih before rest quiet with ⟨rfl, rfl, rfl⟩
          exact ⟨rfl, rfl, rfl⟩

theorem not_unstopped {earlier later : Transcript} {raw : RawStatus} :
    ¬Unstopped pid (earlier ++ stopOf pid raw :: later) :=
  fun unstopped => unstopped raw (by simp)

end StopsOnce

section Waiting

variable {pid : Pid}

/-- What a wait for the process returns is the status of its last answer. -/
def Waited (pid : Pid) (result : Option Status) (transcript : Transcript) : Prop :=
  result = none ∧ Unstopped pid transcript ∨
    StopsOnce pid (fun _ raw after =>
      after = [] ∧ result = (WaitStatus.fromRaw raw).map Status.mk) transcript

theorem Waited.cons {result : Option Status} {exchange : Exchange Sys} {transcript : Transcript}
    (other : ∀ raw, exchange ≠ stopOf pid raw) (waited : Waited pid result transcript) :
    Waited pid result (exchange :: transcript) := by
  rcases waited with ⟨nothing, unstopped⟩ | once
  · exact .inl ⟨nothing, unstopped.cons other⟩
  · exact .inr (once.cons other fun _ _ _ holds => holds)

theorem Waited.stop (pid : Pid) (raw : RawStatus) :
    Waited pid ((WaitStatus.fromRaw raw).map Status.mk) [stopOf pid raw] :=
  .inr ⟨[], raw, [], rfl, Unstopped.nil, Unstopped.nil, rfl, rfl⟩

theorem waited_waitRounds (deadline rounds : Nat) :
    (waitRounds pid deadline rounds).Says (Waited pid) := by
  induction rounds with
  | zero => exact .inl ⟨rfl, Unstopped.nil⟩
  | succ rounds ih =>
      have again (exchange : Exchange Sys) (other : ∀ raw, exchange ≠ stopOf pid raw) :
          Prog.Says (do
            if (← perform .nowMs) ≥ deadline then
              return none
            else
              waitRounds pid deadline rounds) fun result transcript =>
                Waited pid result (exchange :: transcript) := by
        intro now
        have clock : ∀ raw, (⟨.nowMs, now⟩ : Exchange Sys) ≠ stopOf pid raw := by
          rintro raw ⟨⟩
        dsimp only [Prog.bind]
        split
        · exact (Waited.cons clock (.inl ⟨rfl, Unstopped.nil⟩)).cons other
        · exact ih.mono fun _ _ waited => (waited.cons clock).cons other
      unfold waitRounds Wait.waitpid
      simp only [Prog.bind_eq, Prog.bind_assoc']
      intro answer
      cases answer with
      | stillAlive => exact again _ (by rintro raw ⟨⟩)
      | interrupted => exact ih.mono fun _ _ waited => waited.cons (by rintro raw ⟨⟩)
      | noChild | failed => exact Waited.cons (by rintro raw ⟨⟩) (.inl ⟨rfl, Unstopped.nil⟩)
      | status child raw =>
          dsimp only [Prog.bind]
          by_cases same : child = pid
          · subst same
            have stopped := Waited.stop child raw
            cases decoded : WaitStatus.fromRaw raw with
            | none =>
                rw [decoded] at stopped
                exact stopped
            | some status =>
                rw [decoded] at stopped
                dsimp only [Prog.bind, Prog.pure_eq]
                rw [if_pos rfl]
                exact stopped
          · have other : ∀ raw',
                (⟨.waitpid pid, WaitResult.status child raw⟩ : Exchange Sys) ≠ stopOf pid raw' := by
              intro raw' equal
              simp [stopOf, same] at equal
            cases decoded : WaitStatus.fromRaw raw with
            | none => exact Waited.cons other (.inl ⟨rfl, Unstopped.nil⟩)
            | some status =>
                dsimp only [Prog.bind, Prog.pure_eq]
                rw [if_neg same]
                exact again _ other

theorem waited_waitForStop (deadline : Nat) : (waitForStop pid deadline).Says (Waited pid) := by
  intro rounds
  exact (waited_waitRounds deadline rounds).mono fun _ _ waited => waited.cons (by rintro raw ⟨⟩)

end Waiting

/-- The header that the daemon has read first. -/
def headerIn (transcript : Transcript) : Option ElfHeader :=
  transcript.findSome? fun
    | ⟨.elfHeader _, header⟩ => header
    | _ => none

/-- The register set that the daemon has read first. -/
def regsetIn (transcript : Transcript) : Option (List UInt8) :=
  transcript.findSome? fun
    | ⟨.getRegset _ _, filled⟩ => filled
    | _ => none

/-- The memory map that the daemon has read first. -/
def mapsIn (transcript : Transcript) : Option (List MapEntry) :=
  transcript.findSome? fun
    | ⟨.maps _, entries⟩ => some entries
    | _ => none

/-- `pc_in_exe_text`, on a memory map that has been read. -/
def inExeText (exe : String) (entries : List MapEntry) (pc : Nat) : Bool :=
  entries.any fun entry =>
    Procfs.mapPathEqualsExe entry.path exe && decide (entry.perms &&& Procfs.PROT_EXEC ≠ 0) &&
      entry.contains pc

section Seizing

variable {pid : Pid} {exe : String}

/-- The process was not taken: it is let go without a signal, because the status is not one
of a stopped process or because a request was not granted. -/
def Refused (raw : RawStatus) (after : Transcript) : Prop :=
  Withholds after ∧ ∀ status, WaitStatus.fromRaw raw = some status → ¬Status.Gone ⟨status⟩ →
    ∃ exchange ∈ after, ¬Granted exchange

/-- A process that has been waited for is let go. -/
theorem Waited.refuse {waiting rest : Transcript} {status : Option Status}
    (waited : Waited pid status waiting) (quiet : Unstopped pid rest) (withholds : Withholds rest)
    (excuse : ∀ known, status = some known → ¬known.Gone → ∃ exchange ∈ rest, ¬Granted exchange) :
    Unstopped pid (waiting ++ rest) ∨
      StopsOnce pid (fun _ raw after => Refused raw after) (waiting ++ rest) := by
  rcases waited with ⟨nothing, unstopped⟩ | once
  · exact .inl (unstopped.append quiet)
  · right
    apply once.append quiet
    rintro before raw _ ⟨rfl, decoded⟩
    refine ⟨withholds, ?_⟩
    intro known isKnown
    exact excuse ⟨known⟩ (by rw [decoded, isKnown]; rfl)

variable [Usize]

/-- The process was taken; `raw` is the status and `filled` the register set it was taken with. -/
structure Taken (stopped : StoppedTarget) (raw : RawStatus) (filled : List UInt8) : Prop where
  known : stopped.arch ≠ .unknown
  pc : stopped.pc = ((Regs.new stopped.arch).fill filled).pc
  signal : ∃ status, WaitStatus.fromRaw raw = some status ∧
    stopped.resumeSignal = Daemon.resumeSignalOf ⟨status⟩

/-- The answer with the register set of a process that was taken. -/
def registersOf (pid : Pid) (stopped : StoppedTarget) (filled : List UInt8) : Exchange Sys :=
  ⟨.getRegset pid stopped.arch.registerSize, some filled⟩

/-- The transcripts of an attempt to take the process; `shows` is what the part before the stop
has of a process that was taken. -/
def Attempted (pid : Pid) (shows : Transcript → Arch → Prop)
    (result : Except Seizure StoppedTarget) (transcript : Transcript) : Prop :=
  match result with
  | .error _ =>
      Unstopped pid transcript ∨ StopsOnce pid (fun _ raw after => Refused raw after) transcript
  | .ok stopped =>
      StopsOnce pid (fun before raw after => shows before stopped.arch ∧
        ∃ filled, after = [registersOf pid stopped filled] ∧ Taken stopped raw filled) transcript

section Attempts

variable {shows weaker : Transcript → Arch → Prop} {result : Except Seizure StoppedTarget}

theorem Attempted.mono {transcript : Transcript} (attempted : Attempted pid shows result transcript)
    (implies : ∀ before arch, shows before arch → weaker before arch) :
    Attempted pid weaker result transcript := by
  cases result with
  | error seizure => exact attempted
  | ok stopped =>
      rcases attempted with ⟨before, raw, after, rfl, quietBefore, quietAfter, shown, taken⟩
      exact ⟨before, raw, after, rfl, quietBefore, quietAfter, implies before _ shown, taken⟩

theorem Attempted.prepend {first transcript : Transcript} (quiet : Unstopped pid first)
    (attempted : Attempted pid (fun before arch => shows (first ++ before) arch) result
      transcript) : Attempted pid shows result (first ++ transcript) := by
  cases result with
  | error seizure =>
      rcases attempted with unstopped | once
      · exact .inl (quiet.append unstopped)
      · exact .inr (StopsOnce.prepend quiet once fun _ _ _ refused => refused)
  | ok stopped => exact StopsOnce.prepend quiet attempted fun _ _ _ holds => holds

theorem Attempted.none (seizure : Seizure) : Attempted pid shows (.error seizure) [] :=
  .inl Unstopped.nil

/-- A call that is not a wait for the process comes before the stop. -/
theorem attempted_perform {request : Call} (other : request ≠ .waitpid pid)
    {next : request.Answer → Prog Sys (Except Seizure StoppedTarget)}
    (rest : ∀ answer, (next answer).Says
      (Attempted pid fun before arch => shows (⟨request, answer⟩ :: before) arch)) :
    ((perform request).bind next).Says (Attempted pid shows) := by
  intro answer
  apply (rest answer).mono
  intro result transcript attempted
  apply Attempted.prepend (Unstopped.nil.cons _) attempted
  intro raw same
  exact other (congrArg Sigma.fst same)

end Attempts

theorem attempted_seizeWith {arch : Arch} (known : arch ≠ .unknown) (is64 : Bool) (entry : Nat)
    (thumb : Bool) :
    (Daemon.seizeWith pid arch is64 entry thumb).Says
      (Attempted pid fun _ shown => shown = arch) := by
  have release (seizure : Seizure) :
      ((Ptrace.detach pid none).bind fun _ => Prog.pure (.error seizure)).Says
        (Attempted pid fun _ shown => shown = arch) :=
    attempted_perform (by simp) fun _ => Attempted.none seizure
  apply attempted_perform (by simp)
  intro seized
  cases seized with
  | permissionDenied | failed => exact Attempted.none _
  | ok =>
      apply attempted_perform (by simp)
      intro interrupted
      cases interrupted with
      | false => exact release .giveUp
      | true =>
          apply attempted_perform (by simp)
          intro now
          apply Prog.says_bind.mpr
          apply (waited_waitForStop _).mono
          intro status waiting waited
          have letGo (excuse : ∀ known, status = some known → known.Gone) :
              ((Ptrace.detach pid none).bind fun _ => Prog.pure (.error .giveUp)).Says
                fun result rest => Attempted pid (fun _ shown => shown = arch) result
                  (waiting ++ rest) := by
            intro answer
            refine waited.refuse ?_ ?_ ?_
            · exact Unstopped.nil.cons (by rintro raw ⟨⟩)
            · simp [Withholds, Call.carries]
            · intro known isKnown alive
              exact absurd (excuse known isKnown) alive
          cases status with
          | none => exact letGo (by rintro known ⟨⟩)
          | some status =>
              dsimp only
              split
              case isTrue gone =>
                exact letGo (by rintro _ ⟨⟩; simpa [Status.Gone] using gone)
              intro filled
              cases filled with
              | none =>
                  intro answer
                  refine waited.refuse ?_ ?_ ?_
                  · exact (Unstopped.nil.cons (by rintro raw ⟨⟩)).cons (by rintro raw ⟨⟩)
                  · simp [Withholds, Call.carries]
                  · intro known isKnown alive
                    exact ⟨_, List.mem_cons_self, by simp [granted]⟩
              | some filled =>
                  rcases waited with ⟨nothing, _⟩ | once
                  · cases nothing
                  · apply once.append (Unstopped.nil.cons (by rintro raw ⟨⟩))
                    rintro before raw _ ⟨rfl, decoded⟩
                    rcases Option.map_eq_some_iff.mp decoded.symm with ⟨status, isStatus, rfl⟩
                    exact ⟨rfl, filled, rfl, known, rfl, status, isStatus, rfl⟩

/-- The architecture is that of the header that was read before the stop. -/
def ShowsArch (before : Transcript) (arch : Arch) : Prop :=
  ∃ header, headerIn before = some header ∧ arch = Elf.archOf header

omit [Usize] in
theorem ShowsArch.append {first before : Transcript} {arch : Arch}
    (shown : ShowsArch first arch) : ShowsArch (first ++ before) arch := by
  rcases shown with ⟨header, found, isArch⟩
  refine ⟨header, ?_, isArch⟩
  rw [headerIn, List.findSome?_append]
  change (headerIn first).or _ = _
  rw [found]
  rfl

theorem says_seizePlan :
    (Daemon.seizePlan pid exe).Says fun plan transcript =>
      ∀ arch is64 entry thumb, plan = some (arch, is64, entry, thumb) →
        arch ≠ .unknown ∧ ShowsArch transcript arch := by
  intro header
  cases header with
  | none => rintro arch is64 entry thumb ⟨⟩
  | some header =>
      dsimp only [Prog.bind]
      split
      · rintro arch is64 entry thumb ⟨⟩
      case isFalse known =>
        intro entries
        dsimp only [Prog.bind]
        split
        · rintro arch is64 entry thumb ⟨⟩
        split
        · rintro arch is64 entry thumb ⟨⟩
        split
        · rintro arch is64 entry thumb ⟨⟩
        rintro arch is64 entry thumb ⟨⟩
        exact ⟨known, header, rfl, rfl⟩

theorem attempted_seizeAndStop (own : Daemon) :
    StateProg.Says (Daemon.seizeAndStop pid exe)
      (fun result _ transcript => Attempted pid ShowsArch result transcript) own := by
  unfold Daemon.seizeAndStop
  rw [StateProg.says_bind, StateProg.says_lift]
  intro tracer
  have asked : Unstopped pid [⟨.foreignTracer pid, tracer⟩] :=
    Unstopped.nil.cons (by rintro raw ⟨⟩)
  cases tracer with
  | some tracer => exact .inl asked
  | none =>
      dsimp only [Prog.Says]
      rw [StateProg.says_bind, StateProg.says_lift]
      apply ((reads_seizePlan pid exe).exchanges.and says_seizePlan).mono
      rintro plan planning ⟨reads, shows⟩
      have silent : ∀ exchange ∈ planning, exchange.1.silent :=
        fun exchange present => Call.silent_of_reads _ (reads exchange present)
      have before := asked.append (unstopped_of_silent silent)
      cases plan with
      | none => exact .inl (by simpa using before)
      | some plan =>
          rcases plan with ⟨arch, is64, entry, thumb⟩
          rcases shows arch is64 entry thumb rfl with ⟨known, shown⟩
          dsimp only
          rw [StateProg.says_lift]
          apply (attempted_seizeWith known is64 entry thumb).mono
          intro result transcript attempted
          rw [← List.append_assoc]
          apply Attempted.prepend before
          apply attempted.mono
          rintro rest _ rfl
          have shownBefore : ShowsArch ([⟨.foreignTracer pid, none⟩] ++ planning) _ := shown
          exact shownBefore.append

end Seizing

section Fates

variable [Usize] {pid : Pid} {exe : String} {own : Daemon} {stopped : StoppedTarget}

/-- The process is armed and let run with the signal if every request is granted, and let go
without a signal otherwise. -/
def Armed (pid : Pid) (signal : Option Int) (transcript : Transcript) : Prop :=
  (∀ exchange ∈ transcript, Granted exchange) ∧
      nextResume pid (eventsOf transcript) = some (signal.bind Signal.fromNumber) ∨
    (∃ exchange ∈ transcript, ¬Granted exchange) ∧ Withholds transcript

theorem says_armEntryInjection (known : stopped.arch ≠ .unknown) :
    StateProg.Says (Daemon.armEntryInjection pid exe stopped)
      (fun _ _ transcript => Unstopped pid transcript ∧ Armed pid stopped.resumeSignal transcript)
      own := by
  unfold Daemon.armEntryInjection
  rw [StateProg.says_bind, StateProg.says_get, StateProg.says_bind, StateProg.says_lift]
  intro now
  dsimp only [Prog.Says]
  rw [StateProg.says_bind, StateProg.says_lift]
  apply (touched_setEntryBreakpoint known stopped.thumb).mono
  intro armed setting touched
  have clock : Unstopped pid [⟨.nowMs, now⟩] := Unstopped.nil.cons (by rintro raw ⟨⟩)
  cases armed with
  | none =>
      intro detached
      change Unstopped pid ([⟨.nowMs, now⟩] ++ (setting ++ [⟨.detach pid none, detached⟩])) ∧
        Armed pid _ ([⟨.nowMs, now⟩] ++ (setting ++ [⟨.detach pid none, detached⟩]))
      have let_go : Withholds [⟨.detach pid none, detached⟩] := by simp [Withholds, Call.carries]
      have asked : Withholds [⟨.nowMs, now⟩] := by simp [Withholds, Call.carries]
      refine ⟨clock.append (touched.unstopped.append (Unstopped.nil.cons (by rintro raw ⟨⟩))), ?_⟩
      refine .inr ⟨?_, asked.append (touched.withholds.append let_go)⟩
      have refused : ¬∀ exchange ∈ setting, Granted exchange := fun all => by
        simpa using touched.2.mpr all
      push Not at refused
      rcases refused with ⟨exchange, present, refused⟩
      exact ⟨exchange, by simp [present], refused⟩
  | some tracee =>
      intro resumed
      change Unstopped pid ([⟨.nowMs, now⟩] ++ (setting ++ [⟨.cont pid _, resumed⟩])) ∧
        Armed pid _ ([⟨.nowMs, now⟩] ++ (setting ++ [⟨.cont pid _, resumed⟩]))
      refine ⟨clock.append (touched.unstopped.append (Unstopped.nil.cons (by rintro raw ⟨⟩))), ?_⟩
      refine .inl ⟨?_, ?_⟩
      · have granted := touched.2.mp rfl
        simp only [List.mem_append, List.mem_singleton]
        rintro exchange (rfl | present | rfl)
        · trivial
        · exact granted exchange present
        · trivial
      · rw [eventsOf_append, eventsOf_append, touched.eventsOf]
        simp [eventsOf, effects, nextResume]

/-- What becomes of a process after its stop. -/
def Fate (pid : Pid) (exe : String) (before : Transcript) (raw : RawStatus)
    (after : Transcript) : Prop :=
  Refused raw after ∨ ∃ stopped filled entries rest,
    after = registersOf pid stopped filled :: ⟨.maps pid, entries⟩ :: rest ∧
      ShowsArch before stopped.arch ∧ Taken stopped raw filled ∧
      if inExeText exe entries stopped.pc then Withholds rest
      else Armed pid stopped.resumeSignal rest

/-- The two ways to seize a target differ in what they do with one that is past its entry. -/
theorem says_seizing {rest : StoppedTarget → Bool → DaemonM Seizure}
    (inside : ∀ stopped, Silent (rest stopped true))
    (outside : ∀ stopped own, stopped.arch ≠ .unknown → StateProg.Says (rest stopped false)
      (fun _ _ transcript => Unstopped pid transcript ∧ Armed pid stopped.resumeSignal transcript)
      own) :
    StateProg.Says (do
        match ← Daemon.seizeAndStop pid exe with
        | .error seizure => return seizure
        | .ok stopped => do
            let inText ← Procfs.pcInExeText pid exe stopped.pc
            rest stopped inText)
      (fun _ _ transcript => Unstopped pid transcript ∨ StopsOnce pid (Fate pid exe) transcript)
      own := by
  rw [StateProg.says_bind]
  apply StateProg.says_mono (attempted_seizeAndStop own)
  intro result own' first attempted
  cases result with
  | error seizure =>
      apply StateProg.says_pure
      rw [List.append_nil]
      rcases attempted with unstopped | once
      · exact .inl unstopped
      · rcases once with ⟨before, raw, after, rfl, quietBefore, quietAfter, refused⟩
        exact .inr ⟨before, raw, after, rfl, quietBefore, quietAfter, .inl refused⟩
  | ok stopped =>
      rcases attempted with ⟨before, raw, _, rfl, quietBefore, quietAfter, shown, filled, rfl, taken⟩
      let whole (entries : List MapEntry) (last : Transcript) : Transcript :=
        before ++ stopOf pid raw :: [registersOf pid stopped filled] ++ (⟨.maps pid, entries⟩ :: last)
      have fate {entries : List MapEntry} {last : Transcript} (quiet : Unstopped pid last)
          (ends : if inExeText exe entries stopped.pc then Withholds last
            else Armed pid stopped.resumeSignal last) :
          StopsOnce pid (Fate pid exe) (whole entries last) := by
        refine ⟨before, raw, registersOf pid stopped filled :: ⟨.maps pid, entries⟩ :: last,
          by simp [whole], quietBefore, ?_, ?_⟩
        · exact quietAfter.append (quiet.cons (by rintro raw ⟨⟩))
        · exact .inr ⟨stopped, filled, entries, last, rfl, shown, taken, ends⟩
      dsimp only
      rw [StateProg.says_bind, StateProg.says_lift]
      intro entries
      change StateProg.Says (rest stopped (inExeText exe entries stopped.pc))
        (fun _ _ last => Unstopped pid (whole entries last) ∨
          StopsOnce pid (Fate pid exe) (whole entries last)) own'
      cases inText : inExeText exe entries stopped.pc with
      | true =>
          apply StateProg.says_mono ((inside stopped).exchanges own')
          intro seizure own'' last silent
          refine .inr (fate (unstopped_of_silent silent) ?_)
          rw [if_pos inText]
          exact withholds_of_silent silent
      | false =>
          apply StateProg.says_mono (outside stopped own' taken.known)
          rintro seizure own'' last ⟨quiet, armed⟩
          refine .inr (fate quiet ?_)
          rw [inText, if_neg Bool.false_ne_true]
          exact armed

theorem says_seizeTarget :
    StateProg.Says (Daemon.seizeTarget pid exe)
      (fun _ _ transcript => Unstopped pid transcript ∨ StopsOnce pid (Fate pid exe) transcript)
      own := by
  unfold Daemon.seizeTarget
  apply says_seizing
  · intro stopped
    apply StateProg.All.bind (silent_recordFailure _)
    intro _
    exact StateProg.All.bind silent_detach fun _ => StateProg.All.pure _
  · intro stopped own known
    exact says_armEntryInjection known

theorem says_seizeLateTarget [Config.Build] :
    StateProg.Says (Daemon.seizeLateTarget pid exe)
      (fun _ _ transcript => Unstopped pid transcript ∨ StopsOnce pid (Fate pid exe) transcript)
      own := by
  unfold Daemon.seizeLateTarget
  apply says_seizing
  · intro stopped
    apply StateProg.All.bind (silent_reads (reads_perform (.isSingleThreaded pid) trivial))
    intro singleThreaded
    apply StateProg.All.bind (silent_reads (reads_perform (.processAgeMs pid) trivial))
    intro age
    dsimp only
    split
    · apply StateProg.All.bind (silent_recordFailure _)
      intro _
      exact StateProg.All.bind silent_detach fun _ => StateProg.All.pure _
    · exact silent_injectLate stopped
  · intro stopped own known
    exact says_armEntryInjection known

end Fates

/-- The ways on which the daemon interrupts a process. -/
inductive Path where
  | seize (exe : String)
  | seizeLate (exe : String)
  | expire
  | release
  | handOver

section Preservation

variable [Usize] [Config.Build]

/-- The transcript is one of a run along the path. -/
def Path.Takes (path : Path) (pid : Pid) (own own' : Daemon) (transcript : Transcript) : Prop :=
  match path with
  | .seize exe =>
      ∃ seizure, StateProg.Talks (Daemon.seizeTarget pid exe) own seizure own' transcript
  | .seizeLate exe =>
      ∃ seizure, StateProg.Talks (Daemon.seizeLateTarget pid exe) own seizure own' transcript
  | .expire => StateProg.Talks Daemon.expirePending own ⟨⟩ own' transcript
  | .release => ∃ all, StateProg.Talks Daemon.releaseTracees own all own' transcript
  | .handOver => ∃ handed, StateProg.Talks Daemon.handOverInit own handed own' transcript

omit [Config.Build] in
/-- The program counter of the stopped process is not in the text of its executable, if header,
registers and memory map are read. -/
def PcOutside (exe : String) (earlier later : Transcript) : Prop :=
  ∀ header ∈ headerIn earlier, ∀ filled ∈ regsetIn later, ∀ entries ∈ mapsIn later,
    inExeText exe entries ((Regs.new (Elf.archOf header)).fill filled).pc = false

/-- When the path gives the signal of the stop back. -/
def Path.GivesBack (path : Path) (signal : Int) (earlier later : Transcript) : Prop :=
  match path with
  | .seize exe | .seizeLate exe =>
      signal ≤ 31 ∧ (∀ exchange ∈ later, Granted exchange) ∧ PcOutside exe earlier later
  | .expire | .release | .handOver => False

variable {pid : Pid} {signal : Int} {earlier later : Transcript}

omit [Config.Build] in
theorem fate_givesBack_iff {exe : String}
    (fate : Fate pid exe earlier (.stopped signal 0) later) (real : 1 ≤ signal ∧ signal ≤ 64)
    (notTrap : signal ≠ Signal.SIGTRAP) :
    nextResume pid (eventsOf later) = some (some signal) ↔
      signal ≤ 31 ∧ (∀ exchange ∈ later, Granted exchange) ∧ PcOutside exe earlier later := by
  have notSyscall : ¬signal = 133 := by omega
  rcases fate with ⟨withholds, excuse⟩ | ⟨stopped, filled, entries, rest, rfl, shown, taken, ends⟩
  · apply iff_of_false (withholds.nextResume signal)
    rintro ⟨known, granted, _⟩
    have decoded : WaitStatus.fromRaw (.stopped signal 0) = some (.stopped signal) := by
      simp [WaitStatus.fromRaw, Signal.fromNumber, notSyscall, real.1, known]
    rcases excuse _ decoded (by simp [Status.Gone, Status.isExited, Status.isSignaled]) with
      ⟨exchange, present, refused⟩
    exact refused (granted exchange present)
  · rcases shown with ⟨header, found, isArch⟩
    rcases taken with ⟨known, pc, status, decoded, resumes⟩
    have isStop : (1 ≤ signal ∧ signal ≤ 31) ∧ status = .stopped signal := by
      simpa [WaitStatus.fromRaw, Signal.fromNumber, notSyscall, eq_comm] using decoded
    rcases isStop with ⟨inRange, rfl⟩
    have outside : PcOutside exe earlier
        (registersOf pid stopped filled :: ⟨.maps pid, entries⟩ :: rest) ↔
          inExeText exe entries stopped.pc = false := by
      rw [pc, isArch, PcOutside, found]
      simp [regsetIn, mapsIn, registersOf]
    have grants : (∀ exchange ∈ registersOf pid stopped filled :: ⟨.maps pid, entries⟩ :: rest,
        Granted exchange) ↔ ∀ exchange ∈ rest, Granted exchange := by
      rw [List.forall_mem_cons, List.forall_mem_cons]
      exact ⟨fun all => all.2.2, fun all => ⟨rfl, rfl, all⟩⟩
    rw [outside, grants]
    change nextResume pid (eventsOf rest) = _ ↔ _
    cases inText : inExeText exe entries stopped.pc with
    | true =>
        rw [if_pos inText] at ends
        exact iff_of_false (ends.nextResume signal) (by simp)
    | false =>
        rw [inText, if_neg Bool.false_ne_true, resumes] at ends
        have carried : (Daemon.resumeSignalOf ⟨.stopped signal⟩).bind Signal.fromNumber =
            some signal := by
          simp [Daemon.resumeSignalOf, Status.isStopped, Status.stopSignal, notTrap,
            Signal.fromNumber, inRange]
        rcases ends with ⟨all, next⟩ | ⟨⟨exchange, present, refused⟩, withholds⟩
        · rw [next, carried]
          exact iff_of_true rfl ⟨inRange.2, all, rfl⟩
        · apply iff_of_false (withholds.nextResume signal)
          rintro ⟨_, all, _⟩
          exact refused (all exchange present)

/-- A signal that stops an interrupted process is given back on the way to the injection, if the
process can be armed at its entry, and on no other way. -/
theorem signal_given_back_iff (path : Path) {own own' : Daemon}
    (takes : path.Takes pid own own' (earlier ++ stopOf pid (.stopped signal 0) :: later))
    (real : 1 ≤ signal ∧ signal ≤ 64) (notTrap : signal ≠ Signal.SIGTRAP) :
    nextResume pid (eventsOf later) = some (some signal) ↔ path.GivesBack signal earlier later := by
  have withheld {α : Type} {program : DaemonM α} {value : α} (withholding : Withholding program)
      (talks : StateProg.Talks program own value own'
        (earlier ++ stopOf pid (.stopped signal 0) :: later)) :
      ¬nextResume pid (eventsOf later) = some (some signal) := by
    have all := talks.of_says (StateProg.All.exchanges withholding own)
    have withholds : Withholds later := fun exchange present => all exchange (by simp [present])
    exact withholds.nextResume signal
  cases path with
  | seize exe =>
      rcases takes with ⟨seizure, talks⟩
      rcases talks.of_says says_seizeTarget with unstopped | once
      · exact absurd unstopped StopsOnce.not_unstopped
      · exact fate_givesBack_iff once.split real notTrap
  | seizeLate exe =>
      rcases takes with ⟨seizure, talks⟩
      rcases talks.of_says says_seizeLateTarget with unstopped | once
      · exact absurd unstopped StopsOnce.not_unstopped
      · exact fate_givesBack_iff once.split real notTrap
  | expire => exact iff_of_false (withheld withholding_expirePending takes) id
  | release =>
      rcases takes with ⟨all, talks⟩
      exact iff_of_false (withheld withholding_releaseTracees talks) id
  | handOver =>
      rcases takes with ⟨handed, talks⟩
      exact iff_of_false (withheld withholding_handOverInit talks) id

end Preservation

/-- A process that answers an interrupt with a stop by the signal 15, and every other request
like the program `/a` before its entry. -/
def interruptedA : (request : Call) → request.Answer
  | .seize _ _ => .ok
  | .interrupt _ | .detach _ _ => true
  | .waitRounds => (1 : Nat)
  | .waitpid pid => .status pid (.stopped 15 0)
  | request => runningA (some (registersAt 0)) request

/-- The transcript of the program with these answers. -/
def transcriptOf {α : Type} (program : DaemonM α) (own : Daemon) : Transcript :=
  ((program.run own).eval (fun request history =>
    (interruptedA request, history ++ [⟨request, interruptedA request⟩])) []).2

theorem talks_transcriptOf {α : Type} (program : DaemonM α) (own : Daemon) :
    ∃ value own', StateProg.Talks program own value own' (transcriptOf program own) :=
  ⟨_, _, Prog.talks_eval (I := Sys) interruptedA (program.run own)⟩

def seizedTranscript : Transcript :=
  transcriptOf (@Daemon.seizeTarget .eight 100 "/a") attachedTarget

/-- A process that is seized before its entry gets its signal 15 back. -/
theorem signal_given_back_seized :
    nextResume 100 (eventsOf (seizedTranscript.drop 8)) = some (some 15) := by
  rcases talks_transcriptOf (@Daemon.seizeTarget .eight 100 "/a") attachedTarget with
    ⟨seizure, own', talks⟩
  have split : seizedTranscript =
      seizedTranscript.take 7 ++ stopOf 100 (.stopped 15 0) :: seizedTranscript.drop 8 := rfl
  change StateProg.Talks _ _ _ _ seizedTranscript at talks
  rw [split] at talks
  refine (@signal_given_back_iff .eight .arm64 100 15 (seizedTranscript.take 7)
    (seizedTranscript.drop 8) (.seize "/a") attachedTarget own' ⟨seizure, talks⟩ (by decide)
    (by decide)).mpr ⟨by decide, by decide, ?_⟩
  unfold PcOutside
  decide

/-- Every signal that stops a process on the path is given back to it. -/
def KeepsSignals [Usize] [Config.Build] (path : Path) (pid : Pid) (own : Daemon) : Prop :=
  ∀ own' signal earlier later,
    path.Takes pid own own' (earlier ++ stopOf pid (.stopped signal 0) :: later) →
      1 ≤ signal ∧ signal ≤ 64 → signal ≠ Signal.SIGTRAP →
        nextResume pid (eventsOf later) = some (some signal)

/-- Init is handed over without the signal 15 that stopped it. -/
theorem handed_over_without_signal : ¬@KeepsSignals .eight .arm64 .handOver 1 {} := by
  intro keeps
  rcases talks_transcriptOf Daemon.handOverInit {} with ⟨handed, own', talks⟩
  have split : transcriptOf Daemon.handOverInit {} =
      (transcriptOf Daemon.handOverInit {}).take 3 ++ stopOf 1 (.stopped 15 0) ::
        (transcriptOf Daemon.handOverInit {}).drop 4 := rfl
  rw [split] at talks
  have carried := keeps own' 15 _ _ ⟨handed, talks⟩ (by decide) (by decide)
  exact absurd carried (by decide)

end Znn.Injector
