import Znn.Injector.Spares

/-!
# One process in the daemon's tables

Six tables of the daemon are indexed by pids. A `Sheet` is what they hold about one process, and
a function that is about one process changes its sheet, not those of the others and not the
daemon's settings. `Acts` states what such a function makes of a sheet, with one rule for each way
a program is built; whatever follows about a process in the course of a run is then a matter of
its sheet alone.
-/

namespace Znn.Injector

open Interaction PtraceOps

/-- What the functions about single processes read and do not change. -/
structure Settings where
  targets : List Target
  mode : Tracking
  kernel : Bool
  requestedMode : String
  ignoredRescans : Nat
  lastAllocatedPid : Option Pid

/-- What the tables hold about one process. -/
structure Sheet where
  tracee : Option Tracee
  done : Bool
  ignored : Bool
  candidate : Option Candidate
  deferred : Option Nat
  recheck : Option Nat
deriving DecidableEq

namespace Daemon

def settings (daemon : Daemon) : Settings where
  targets := daemon.targets
  mode := daemon.mode
  kernel := daemon.kernel
  requestedMode := daemon.requestedMode
  ignoredRescans := daemon.ignoredRescans
  lastAllocatedPid := daemon.lastAllocatedPid

def sheet (daemon : Daemon) (pid : Pid) : Sheet where
  tracee := daemon.tracees.lookup pid
  done := decide (pid ∈ daemon.done)
  ignored := decide (pid ∈ daemon.ignored)
  candidate := daemon.candidates.lookup pid
  deferred := daemon.deferred.lookup pid
  recheck := daemon.recheck.lookup pid

end Daemon

namespace Sheet

/-- A process that the functions which look for targets pass over. -/
def Known (sheet : Sheet) : Prop :=
  sheet.tracee ≠ none ∨ sheet.done = true ∨ sheet.ignored = true

instance (sheet : Sheet) : Decidable sheet.Known := by
  unfold Known
  infer_instance

theorem not_known_iff (sheet : Sheet) :
    ¬sheet.Known ↔ sheet.tracee = none ∧ sheet.done = false ∧ sheet.ignored = false := by
  simp [Known]

end Sheet

theorem Daemon.known_iff (daemon : Daemon) (pid : Pid) :
    pid ∈ daemon.tracees ∨ pid ∈ daemon.done ∨ pid ∈ daemon.ignored ↔
      (daemon.sheet pid).Known := by
  rw [Sheet.Known, ← AList.lookup_isSome, ← Option.ne_none_iff_isSome]
  simp only [sheet, decide_eq_true_eq]

theorem Daemon.mem_candidates_iff (daemon : Daemon) (pid : Pid) :
    pid ∈ daemon.candidates ↔ (daemon.sheet pid).candidate ≠ none := by
  rw [← AList.lookup_isSome, ← Option.ne_none_iff_isSome]
  rfl

theorem Table.lookup_retain {α : Type} (table : Table α) (kept : List Pid) (pid : Pid) :
    (table.retain kept).lookup pid = if pid ∈ kept then table.lookup pid else none := by
  have present : ∀ value, (table.retain kept).lookup pid = some value ↔
      pid ∈ kept ∧ table.lookup pid = some value := by
    intro value
    rw [← Option.mem_def, ← Option.mem_def, AList.mem_lookup_iff, AList.mem_lookup_iff]
    simp only [Table.retain, List.mem_filter, decide_eq_true_eq]
    exact and_comm
  split
  case isTrue isKept =>
    apply Option.ext
    intro value
    rw [present]
    exact and_iff_right isKept
  case isFalse notKept =>
    rw [Option.eq_none_iff_forall_ne_some]
    intro value found
    exact notKept ((present value).mp found).1

/-- Only the sheet of one process may differ. -/
structure Local (pid : Pid) (own own' : Daemon) : Prop where
  settings : own'.settings = own.settings
  elsewhere : ∀ other, other ≠ pid → own'.sheet other = own.sheet other

theorem Local.refl (pid : Pid) (own : Daemon) : Local pid own own :=
  ⟨rfl, fun _ _ => rfl⟩

theorem Local.trans {pid : Pid} {own own' own'' : Daemon} (first : Local pid own own')
    (second : Local pid own' own'') : Local pid own own'' := by
  constructor
  · exact second.settings.trans first.settings
  · intro other ne
    exact (second.elsewhere other ne).trans (first.elsewhere other ne)

/-- What a change of the daemon makes of the sheet of the one process it is about. -/
structure Sets (pid : Pid) (change : Daemon → Daemon) (update : Sheet → Sheet) : Prop where
  isLocal : ∀ own, Local pid own (change own)
  sheet : ∀ own, (change own).sheet pid = update (own.sheet pid)

section Changes

variable {pid : Pid}

theorem sets_tracee (tracee : Tracee) :
    Sets pid (fun daemon => { daemon with tracees := daemon.tracees.insert pid tracee })
      fun sheet => { sheet with tracee := some tracee } := by
  constructor
  · intro own
    refine ⟨rfl, fun other ne => ?_⟩
    simp only [Daemon.sheet, AList.lookup_insert_ne ne]
  · intro own
    simp only [Daemon.sheet, AList.lookup_insert]

theorem sets_eraseTracee :
    Sets pid (fun daemon => { daemon with tracees := daemon.tracees.erase pid })
      fun sheet => { sheet with tracee := none } := by
  constructor
  · intro own
    refine ⟨rfl, fun other ne => ?_⟩
    simp only [Daemon.sheet, AList.lookup_erase_ne ne]
  · intro own
    simp only [Daemon.sheet, AList.lookup_erase]

theorem sets_attachChild :
    Sets pid (fun daemon =>
      if pid ∈ daemon.tracees then
        daemon
      else
        { daemon with tracees := daemon.tracees.insert pid (Tracee.new .traced .unknown) })
      fun sheet => { sheet with tracee := sheet.tracee.or (some (Tracee.new .traced .unknown)) } := by
  constructor
  · intro own
    split
    · exact .refl pid own
    · exact (sets_tracee _).isLocal own
  · intro own
    split
    case isTrue present =>
      rcases Option.isSome_iff_exists.mp (AList.lookup_isSome.mpr present) with ⟨tracee, found⟩
      simp only [Daemon.sheet, found, Option.some_or]
    case isFalse absent =>
      have none : own.tracees.lookup pid = none := AList.lookup_eq_none.mpr absent
      simp only [Daemon.sheet, AList.lookup_insert, none, Option.none_or]

theorem sets_done :
    Sets pid (fun daemon => { daemon with done := daemon.done.insert pid })
      fun sheet => { sheet with done := true } := by
  constructor
  · intro own
    refine ⟨rfl, fun other ne => ?_⟩
    simp only [Daemon.sheet, List.mem_insert_iff, ne, false_or]
  · intro own
    simp only [Daemon.sheet, List.mem_insert_iff, true_or, decide_true]

theorem sets_ignored :
    Sets pid (fun daemon => { daemon with ignored := daemon.ignored.insert pid })
      fun sheet => { sheet with ignored := true } := by
  constructor
  · intro own
    refine ⟨rfl, fun other ne => ?_⟩
    simp only [Daemon.sheet, List.mem_insert_iff, ne, false_or]
  · intro own
    simp only [Daemon.sheet, List.mem_insert_iff, true_or, decide_true]

theorem sets_candidate (candidate : Candidate) :
    Sets pid (fun daemon => { daemon with candidates := daemon.candidates.insert pid candidate })
      fun sheet => { sheet with candidate := some candidate } := by
  constructor
  · intro own
    refine ⟨rfl, fun other ne => ?_⟩
    simp only [Daemon.sheet, AList.lookup_insert_ne ne]
  · intro own
    simp only [Daemon.sheet, AList.lookup_insert]

theorem sets_eraseCandidate :
    Sets pid (fun daemon => { daemon with candidates := daemon.candidates.erase pid })
      fun sheet => { sheet with candidate := none } := by
  constructor
  · intro own
    refine ⟨rfl, fun other ne => ?_⟩
    simp only [Daemon.sheet, AList.lookup_erase_ne ne]
  · intro own
    simp only [Daemon.sheet, AList.lookup_erase]

theorem sets_eraseDeferred :
    Sets pid (fun daemon => { daemon with deferred := daemon.deferred.erase pid })
      fun sheet => { sheet with deferred := none } := by
  constructor
  · intro own
    refine ⟨rfl, fun other ne => ?_⟩
    simp only [Daemon.sheet, AList.lookup_erase_ne ne]
  · intro own
    simp only [Daemon.sheet, AList.lookup_erase]

theorem sets_recheck (deadline : Nat) :
    Sets pid (fun daemon => { daemon with recheck := daemon.recheck.insert pid deadline })
      fun sheet => { sheet with recheck := some deadline } := by
  constructor
  · intro own
    refine ⟨rfl, fun other ne => ?_⟩
    simp only [Daemon.sheet, AList.lookup_insert_ne ne]
  · intro own
    simp only [Daemon.sheet, AList.lookup_insert]

theorem sets_eraseRecheck :
    Sets pid (fun daemon => { daemon with recheck := daemon.recheck.erase pid })
      fun sheet => { sheet with recheck := none } := by
  constructor
  · intro own
    refine ⟨rfl, fun other ne => ?_⟩
    simp only [Daemon.sheet, AList.lookup_erase_ne ne]
  · intro own
    simp only [Daemon.sheet, AList.lookup_erase]

/-- An entry that is made once keeps its first value. -/
theorem sets_deferred (deadline : Nat) :
    Sets pid (fun daemon => { daemon with deferred := daemon.deferred.orInsert pid deadline })
      fun sheet => { sheet with deferred := sheet.deferred.or (some deadline) } := by
  have each : ∀ table : Table Nat, (table.orInsert pid deadline).lookup pid =
      (table.lookup pid).or (some deadline) ∧
      ∀ other, other ≠ pid → (table.orInsert pid deadline).lookup other = table.lookup other := by
    intro table
    unfold Table.orInsert
    split
    case isTrue present =>
      rcases Option.isSome_iff_exists.mp (AList.lookup_isSome.mpr present) with ⟨value, found⟩
      refine ⟨?_, fun _ _ => rfl⟩
      rw [found, Option.some_or]
    case isFalse absent =>
      have none : table.lookup pid = none := AList.lookup_eq_none.mpr absent
      refine ⟨?_, fun other ne => AList.lookup_insert_ne ne⟩
      rw [AList.lookup_insert, none, Option.none_or]
  constructor
  · intro own
    refine ⟨rfl, fun other ne => ?_⟩
    simp only [Daemon.sheet, (each own.deferred).2 other ne]
  · intro own
    simp only [Daemon.sheet, (each own.deferred).1]

theorem Sets.comp {first second : Daemon → Daemon} {update update' : Sheet → Sheet}
    (inner : Sets pid first update) (outer : Sets pid second update') :
    Sets pid (fun daemon => second (first daemon)) (fun sheet => update' (update sheet)) := by
  constructor
  · intro own
    exact (inner.isLocal own).trans (outer.isLocal _)
  · intro own
    rw [outer.sheet, inner.sheet]

theorem sets_settled :
    Sets pid (fun daemon =>
      { daemon with
        done := daemon.done.insert pid
        candidates := daemon.candidates.erase pid })
      fun sheet => { sheet with done := true, candidate := none } :=
  sets_done.comp sets_eraseCandidate

theorem sets_settledLate :
    Sets pid (fun daemon =>
      { daemon with
        deferred := daemon.deferred.erase pid
        done := daemon.done.insert pid
        candidates := daemon.candidates.erase pid })
      fun sheet => { sheet with deferred := none, done := true, candidate := none } :=
  sets_eraseDeferred.comp sets_settled

theorem sets_writtenOff :
    Sets pid (fun daemon =>
      { daemon with
        deferred := daemon.deferred.erase pid
        done := daemon.done.insert pid })
      fun sheet => { sheet with deferred := none, done := true } :=
  sets_eraseDeferred.comp sets_done

theorem sets_forgetExited :
    Sets pid (Daemon.forgetExited pid) fun sheet =>
      { tracee := sheet.tracee
        done := false
        ignored := false
        candidate := none
        deferred := none
        recheck := none } := by
  constructor
  · intro own
    refine ⟨rfl, fun other ne => ?_⟩
    simp [Daemon.sheet, Daemon.forgetExited, forget, AList.lookup_erase_ne ne, ne]
  · intro own
    simp [Daemon.sheet, Daemon.forgetExited, forget, AList.lookup_erase]

end Changes

/-- Every run of the program from a daemon with these settings and this sheet of the process ends
as stated; the settings and the other sheets are what they were. -/
def Acts {α : Type} (pid : Pid) (program : DaemonM α) (settings : Settings) (sheet : Sheet)
    (post : α → Sheet → Transcript → Prop) : Prop :=
  ∀ own : Daemon, own.settings = settings → own.sheet pid = sheet →
    StateProg.Says program (fun value own' transcript =>
      Local pid own own' ∧ post value (own'.sheet pid) transcript) own

namespace Acts

variable {α β : Type} {pid : Pid} {settings : Settings} {sheet : Sheet}
  {post weaker : α → Sheet → Transcript → Prop}

theorem mono {program : DaemonM α} (acts : Acts pid program settings sheet post)
    (implies : ∀ value sheet' transcript, post value sheet' transcript →
      weaker value sheet' transcript) : Acts pid program settings sheet weaker := by
  intro own isSettings isSheet
  apply StateProg.says_mono (acts own isSettings isSheet)
  rintro value own' transcript ⟨isLocal, holds⟩
  exact ⟨isLocal, implies _ _ _ holds⟩

theorem pure {value : α} (holds : post value sheet []) :
    Acts pid (Pure.pure value) settings sheet post := by
  intro own isSettings isSheet
  apply StateProg.says_pure
  rw [isSheet]
  exact ⟨.refl pid own, holds⟩

theorem bind {program : DaemonM α} {rest : α → DaemonM β}
    {next : β → Sheet → Transcript → Prop} (first : Acts pid program settings sheet post)
    (second : ∀ value sheet' transcript, post value sheet' transcript →
      Acts pid (rest value) settings sheet' fun result sheet'' more =>
        next result sheet'' (transcript ++ more)) :
    Acts pid (program >>= rest) settings sheet next := by
  intro own isSettings isSheet
  rw [StateProg.says_bind]
  apply StateProg.says_mono (first own isSettings isSheet)
  rintro value own' transcript ⟨isLocal, holds⟩
  apply StateProg.says_mono
    (second value _ transcript holds own' (isLocal.settings.trans isSettings) rfl)
  rintro result own'' more ⟨isLocal', holds'⟩
  exact ⟨isLocal.trans isLocal', holds'⟩

/-- The rest may use that the daemon has these settings and this sheet. -/
theorem bind_get {rest : Daemon → DaemonM β} {next : β → Sheet → Transcript → Prop}
    (second : ∀ own : Daemon, own.settings = settings → own.sheet pid = sheet →
      Acts pid (rest own) settings sheet next) :
    Acts pid (get >>= rest) settings sheet next := by
  intro own isSettings isSheet
  rw [StateProg.says_bind, StateProg.says_get]
  exact second own isSettings isSheet own isSettings isSheet

theorem change {change : Daemon → Daemon} {update : Sheet → Sheet}
    {next : PUnit → Sheet → Transcript → Prop} (sets : Sets pid change update)
    (holds : next ⟨⟩ (update sheet) []) :
    Acts pid (modify change) settings sheet next := by
  intro own isSettings isSheet
  rw [StateProg.says_modify, sets.sheet, isSheet]
  exact ⟨sets.isLocal own, holds⟩

theorem bind_change {change : Daemon → Daemon} {update : Sheet → Sheet}
    {rest : PUnit → DaemonM β} {next : β → Sheet → Transcript → Prop}
    (sets : Sets pid change update)
    (second : Acts pid (rest ⟨⟩) settings (update sheet) next) :
    Acts pid (modify change >>= rest) settings sheet next := by
  have first : Acts pid (modify change) settings sheet fun _ sheet' transcript =>
      sheet' = update sheet ∧ transcript = [] := Acts.change sets ⟨rfl, rfl⟩
  apply bind first
  rintro _ _ _ ⟨rfl, rfl⟩
  exact second

/-- A change that no sheet shows. -/
theorem bind_unseen {change : Daemon → Daemon} {rest : PUnit → DaemonM β}
    {next : β → Sheet → Transcript → Prop}
    (unseen : ∀ own, (change own).settings = own.settings ∧
      ∀ other, (change own).sheet other = own.sheet other)
    (second : Acts pid (rest ⟨⟩) settings sheet next) :
    Acts pid (modify change >>= rest) settings sheet next := by
  have sets : Sets pid change id := by
    constructor
    · exact fun own => ⟨(unseen own).1, fun other _ => (unseen own).2 other⟩
    · exact fun own => (unseen own).2 pid
  exact bind_change sets second

section Lift

variable {program : Prog Sys α} {rest : α → DaemonM β} {next : β → Sheet → Transcript → Prop}

theorem lift (holds : program.Says fun value transcript => post value sheet transcript) :
    Acts pid (liftM program : DaemonM α) settings sheet post := by
  intro own isSettings isSheet
  rw [StateProg.says_lift]
  apply holds.mono
  intro value transcript isPost
  rw [isSheet]
  exact ⟨.refl pid own, isPost⟩

/-- A first part that only talks to the system, with what is known of its value and of what has
been answered. -/
theorem bind_says {good : α → Transcript → Prop} (spec : program.Says good)
    (second : ∀ value transcript, good value transcript →
      Acts pid (rest value) settings sheet fun result sheet' more =>
        next result sheet' (transcript ++ more)) :
    Acts pid (liftM program >>= rest) settings sheet next := by
  have first : Acts pid (liftM program : DaemonM α) settings sheet fun value sheet' transcript =>
      sheet' = sheet ∧ good value transcript := by
    apply lift
    exact spec.mono fun value transcript isGood => ⟨rfl, isGood⟩
  apply bind first
  rintro value _ transcript ⟨rfl, isGood⟩
  exact second value transcript isGood

/-- A first part that only talks to the system, whatever it says. -/
theorem bind_any (second : ∀ value transcript, Acts pid (rest value) settings sheet
      fun result sheet' more => next result sheet' (transcript ++ more)) :
    Acts pid (liftM program >>= rest) settings sheet next := by
  have anything : program.Says fun _ _ => True := Prog.says_iff_talks.mpr fun _ _ _ => trivial
  apply bind_says anything
  exact fun value transcript _ => second value transcript

/-- A first part that is one call. -/
theorem bind_perform (request : Call) {rest : request.Answer → DaemonM β}
    (second : ∀ answer, Acts pid (rest answer) settings sheet fun result sheet' more =>
      next result sheet' (⟨request, answer⟩ :: more)) :
    Acts pid ((liftM (perform request) : DaemonM request.Answer) >>= rest) settings sheet next := by
  have once : Prog.Says (I := Sys) (perform request) fun answer transcript =>
      transcript = [⟨request, answer⟩] := fun answer => rfl
  apply bind_says once
  rintro answer _ rfl
  exact second answer

end Lift

end Acts

end Znn.Injector
