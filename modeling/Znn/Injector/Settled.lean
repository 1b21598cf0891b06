import Znn.Injector.Chores

/-!
# A settled process is no candidate

The pass over `/proc` rests while there are no candidates, so a candidate that is settled, by being
done or ignored, must go. Two functions forget that: a retry that writes a deferred process off, and
a kernel event that dismisses its process. Apart from them, no chore leaves a settled candidate.
-/

namespace Znn.Injector

open Interaction

/-- No retry writes a candidate off, and no kernel event dismisses one. -/
def SparesCandidates (own : Daemon) : Chore × Transcript → Prop
  | (.retry now pid, transcript) => pid ∈ own.candidates → ∀ tracer rest,
      transcript = tracerOf pid (some tracer) :: rest → now < (own.deferred.lookup pid).getD 0
  | (.kernel event, transcript) =>
      event.pid ∈ own.candidates → ¬event.Dismisses own.targets transcript
  | _ => True

/-- A candidate is not settled, and it is not about to be by the expiry of a breakpoint. -/
def Sheet.Coherent (sheet : Sheet) : Prop :=
  sheet.candidate ≠ none →
    sheet.done = false ∧ sheet.ignored = false ∧
      ∀ tracee, sheet.tracee = some tracee → ¬tracee.Expires

namespace Sheet.Coherent

variable {pid : Pid} {sheet sheet' : Sheet}

theorem of_none (none : sheet.candidate = none) : sheet.Coherent :=
  fun isCandidate => absurd none isCandidate

/-- A process that is not known may be a candidate. -/
theorem of_unknown (unknown : ¬sheet.Known) : sheet.Coherent := by
  intro _
  simp only [Sheet.Known, not_or, ne_eq, not_not, Bool.not_eq_true] at unknown
  refine ⟨unknown.2.1, unknown.2.2, fun tracee found => ?_⟩
  rw [unknown.1] at found
  cases found

/-- What the sheet says of candidates and of settling is what counts. -/
theorem frame (coherent : sheet.Coherent) (candidate : sheet'.candidate = sheet.candidate)
    (done : sheet'.done = sheet.done) (ignored : sheet'.ignored = sheet.ignored)
    (tracee : sheet'.tracee = sheet.tracee) : sheet'.Coherent := by
  rw [Coherent, candidate, done, ignored, tracee]
  exact coherent

/-- The tracee may change, as long as no breakpoint that expires is new. -/
theorem trace (coherent : sheet.Coherent) (tracee : Option Tracee)
    (old : ∀ found, tracee = some found → found.Expires → sheet.tracee = some found) :
    { sheet with tracee := tracee }.Coherent := by
  intro isCandidate
  rcases coherent isCandidate with ⟨open', unignored, stays⟩
  refine ⟨open', unignored, fun found isTracee expires => ?_⟩
  exact stays found (old found isTracee expires) expires

theorem observed {mode : Tracking} {transcript : Transcript} (coherent : sheet.Coherent)
    (observed : Observed pid mode sheet transcript sheet') : sheet'.Coherent := by
  cases observed with
  | settled tracee => exact of_none rfl
  | refused => exact coherent
  | deferred => exact coherent.frame rfl rfl rfl rfl

end Sheet.Coherent

section Moves

variable {pid : Pid} {own : Daemon} {sheet : Sheet} {transcript : Transcript}

theorem Polled.coherent {settings : Settings} {sheet' : Sheet}
    (polled : Polled pid settings sheet sheet' transcript) (coherent : sheet.Coherent) :
    sheet'.Coherent := by
  cases polled with
  | known | unread | same => exact coherent
  | passedOver _ _ _ _ _ new => exact .of_none new
  | fork unknown => exact .of_unknown unknown
  | changed | abandoned => exact .of_none rfl
  | observed unknown _ _ _ candidate _ _ _ observed =>
      have open' : { sheet with candidate := some candidate }.Coherent := .of_unknown unknown
      exact open'.observed observed

theorem Considered.coherent {event : KernelEvent}
    (considered : Considered event own.settings (own.sheet event.pid) sheet transcript)
    (spares : event.pid ∈ own.candidates → ¬event.Dismisses own.targets transcript)
    (coherent : (own.sheet event.pid).Coherent) : sheet.Coherent := by
  have dismissed : event.Dismisses own.targets transcript →
      (own.sheet event.pid).candidate = none := by
    intro dismisses
    by_contra isCandidate
    exact spares ((own.mem_candidates_iff event.pid).mpr isCandidate) dismisses
  cases considered with
  | skipped | held | unread => exact coherent
  | exited => exact .of_none rfl
  | passedOver _ _ early path reported noTarget =>
      exact .of_none (dismissed (.path early path reported noTarget))
  | queued => exact coherent.frame rfl rfl rfl rfl
  | gone _ _ late link unreadable => exact .of_none (dismissed (.gone late link unreadable))
  | noTarget _ _ late link readable noTarget =>
      exact .of_none (dismissed (.noTarget late link readable noTarget))
  | observed _ _ _ _ _ _ _ _ _ observed => exact coherent.observed observed

theorem Retried.coherent {now : Nat}
    (retried : Retried now pid own.settings (own.sheet pid) sheet transcript)
    (spares : pid ∈ own.candidates → ∀ tracer rest,
      transcript = tracerOf pid (some tracer) :: rest → now < (own.deferred.lookup pid).getD 0)
    (coherent : (own.sheet pid).Coherent) : sheet.Coherent := by
  cases retried with
  | held => exact coherent
  | writtenOff tracer due =>
      apply Sheet.Coherent.of_none
      by_contra isCandidate
      have early := spares ((own.mem_candidates_iff pid).mpr isCandidate) tracer _ rfl
      exact absurd early (Nat.not_lt.mpr due)
  | dropped => exact coherent.frame rfl rfl rfl rfl
  | observed _ _ _ _ _ _ _ observed =>
      have open' : { own.sheet pid with deferred := none }.Coherent :=
        coherent.frame rfl rfl rfl rfl
      exact open'.observed observed

theorem Rechecked.coherent {settings : Settings} {sheet' : Sheet}
    (rechecked : Rechecked pid settings sheet sheet' transcript) (coherent : sheet.Coherent) :
    sheet'.Coherent := by
  have dropped : { sheet with recheck := none }.Coherent := coherent.frame rfl rfl rfl rfl
  cases rechecked with
  | dropped => exact dropped
  | kept => exact coherent
  | observed _ _ _ _ _ _ _ _ observed => exact dropped.observed observed

theorem Expired.coherent (expired : Expired (own.sheet pid) sheet)
    (enabled : ∀ tracee, own.tracees.lookup pid = some tracee → tracee.Expires)
    (coherent : (own.sheet pid).Coherent) : sheet.Coherent := by
  have closed : ∀ tracee, (own.sheet pid).tracee = some tracee →
      (own.sheet pid).candidate = none := by
    intro tracee found
    by_contra isCandidate
    exact (coherent isCandidate).2.2 tracee found (enabled tracee found)
  cases expired with
  | absent => exact coherent
  | kept tracee found deadline => exact .of_none (closed tracee found)
  | ended tracee found => exact .of_none (closed tracee found)

theorem Pruned.coherent {sheet' : Sheet} (pruned : Pruned pid transcript sheet sheet')
    (coherent : sheet.Coherent) : sheet'.Coherent := by
  intro isCandidate
  have wasCandidate : sheet.candidate ≠ none := by
    rcases pruned.candidate with same | ⟨none, _⟩
    · rwa [← same]
    · exact absurd none isCandidate
  rcases coherent wasCandidate with ⟨open', unignored, stays⟩
  refine ⟨?_, ?_, ?_⟩
  · rcases pruned.done with same | ⟨none, _⟩
    · rwa [same]
    · exact none
  · rcases pruned.ignored with same | ⟨none, _⟩
    · rwa [same]
    · exact none
  · rwa [pruned.tracee]

theorem Sheet.Coherent.swept (coherent : sheet.Coherent) (listed forgets : Bool) :
    (sheet.swept listed forgets).Coherent := by
  cases listed with
  | false => exact .of_none rfl
  | true =>
      intro isCandidate
      rcases coherent isCandidate with ⟨open', unignored, stays⟩
      refine ⟨?_, ?_, stays⟩
      · simp [Sheet.swept, open']
      · simp [Sheet.swept, unignored]

/-- No chore that spares candidates settles one. -/
theorem Moved.coherent {chore : Chore} (moved : Moved pid own chore sheet transcript)
    (enabled : chore.Enabled own) (spares : SparesCandidates own (chore, transcript))
    (coherent : (own.sheet pid).Coherent) : sheet.Coherent := by
  cases moved with
  | unmoved => exact coherent
  | attached =>
      apply coherent.trace
      intro found isTracee expires
      rcases Option.or_eq_some_iff.mp isTracee with old | ⟨_, new⟩
      · exact old
      · cases new
        cases expires.1
  | left => exact coherent.trace none (by rintro _ ⟨⟩)
  | armed _ _ _ _ tracee noDeadline =>
      apply coherent.trace
      rintro _ ⟨⟩ expires
      exact absurd noDeadline expires.2
  | stepped _ _ tracee next found steps =>
      apply coherent.trace
      rintro _ ⟨⟩ expires
      rcases steps with ⟨_, rfl⟩ | ⟨_, calling⟩
      · exact found
      · exact absurd expires.1 calling.notEntry
  | expired _ _ expired => exact expired.coherent enabled coherent
  | rechecked _ _ _ rechecked => exact rechecked.coherent coherent
  | considered event isPid _ _ considered =>
      subst isPid
      exact considered.coherent spares coherent
  | polled _ _ polled => exact polled.coherent coherent
  | swept => exact coherent.swept _ _
  | retried _ _ _ retried => exact retried.coherent spares coherent
  | steered _ _ _ _ tracee traced =>
      apply coherent.trace
      intro found isTracee expires
      have state := expires.1
      rw [traced found isTracee] at state
      cases state
  | pruned _ _ pruned => exact pruned.coherent coherent
  | released => exact coherent.trace none (by rintro _ ⟨⟩)

end Moves

/-- No candidate is done or ignored; once all of them are settled, none is left. -/
def Daemon.CandidatesOpen (daemon : Daemon) : Prop :=
  (∀ pid ∈ daemon.candidates, pid ∉ daemon.done ∧ pid ∉ daemon.ignored) ∧
    ((∀ pid ∈ daemon.candidates, pid ∈ daemon.done ∨ pid ∈ daemon.ignored) →
      daemon.candidates.keys = [])

theorem Daemon.CandidatesOpen.of_sheets {daemon : Daemon}
    (coherent : ∀ pid, (daemon.sheet pid).Coherent) : daemon.CandidatesOpen := by
  have apart : ∀ pid ∈ daemon.candidates, pid ∉ daemon.done ∧ pid ∉ daemon.ignored := by
    intro pid isCandidate
    rcases coherent pid ((daemon.mem_candidates_iff pid).mp isCandidate) with ⟨open', unignored, _⟩
    exact ⟨of_decide_eq_false open', of_decide_eq_false unignored⟩
  refine ⟨apart, fun settled => ?_⟩
  rw [List.eq_nil_iff_forall_not_mem]
  intro pid isKey
  have isCandidate : pid ∈ daemon.candidates := AList.mem_keys.mpr isKey
  rcases settled pid isCandidate with isDone | isIgnored
  · exact (apart pid isCandidate).1 isDone
  · exact (apart pid isCandidate).2 isIgnored

section Runs

variable [Usize] [Config.Build]

theorem coherent_initial {daemon : Daemon} (initial : bookkeeping.Initial daemon) (pid : Pid) :
    (daemon.sheet pid).Coherent := by
  rcases initial with ⟨moduleDir, snapshot, transcript, talks⟩
  rcases talks.of_says (Daemon.says_new_sheets moduleDir snapshot) with ⟨empty, clear, steered⟩
  have none : (empty.sheet pid).candidate = none := by
    rw [clear pid]
  rcases steered pid with same | ⟨_, tracee, same, _⟩
  · rw [same]
    exact .of_none none
  · rw [same]
    exact .of_none none

/-- In every state of a run whose retries and kernel events spare candidates, no candidate is
settled. -/
theorem settled_not_candidate {daemon : Daemon}
    (reached : (bookkeeping.restrict SparesCandidates).Reachable daemon) :
    daemon.CandidatesOpen := by
  apply Daemon.CandidatesOpen.of_sheets
  apply reached.induct
  · exact fun _ => coherent_initial
  · rintro own ⟨chore, transcript⟩ own' coherent spares step pid
    have moves := moves_of_step step
    exact (moves.moved pid).coherent step.1 spares (coherent pid)

/-- In no reachable state is a candidate settled. -/
def CandidatesAlwaysOpen : Prop :=
  ∀ daemon, bookkeeping.Reachable daemon → daemon.CandidatesOpen

end Runs

theorem settled_not_candidate_before_deadline : ∃ daemon,
    (@System.restrict _ _ (@bookkeeping .eight .arm64) SparesCandidates).Reachable daemon ∧
      daemon.candidates.keys = [7] ∧ daemon.CandidatesOpen := by
  let _ : Usize := .eight
  let _ : Config.Build := .arm64
  have ran : (((Daemon.new "" none).replay startingLate).bind fun own =>
      (Chore.attempt own findingHeld).bind fun held =>
        (Chore.attempt held (retryingHeld 300 [])).map fun daemon =>
          (held.deferred.lookup 7, daemon.candidates.keys)) = some (some 10200, [7]) := by
    decide +kernel
  simp only [Option.bind_eq_some_iff, Option.map_eq_some_iff, Prod.mk.injEq] at ran
  rcases ran with ⟨own, constructed, held, found, daemon, retried, deadline, candidates⟩
  have reached : (bookkeeping.restrict SparesCandidates).Reachable daemon := by
    have start : (bookkeeping.restrict SparesCandidates).Reachable own :=
      .initial ⟨"", none, _, Prog.Talks.of_replay constructed⟩
    have finds : (bookkeeping.restrict SparesCandidates).Step own findingHeld held :=
      ⟨trivial, bookkeeping_attempt _ _ _ found⟩
    have retries : (bookkeeping.restrict SparesCandidates).Step held (retryingHeld 300 []) daemon := by
      refine ⟨?_, bookkeeping_attempt _ _ _ retried⟩
      intro _ _ _ _
      rw [deadline]
      decide
    exact (start.step finds).step retries
  exact ⟨daemon, reached, candidates, settled_not_candidate reached⟩

theorem written_off_candidate_stays : ¬@CandidatesAlwaysOpen .eight .arm64 := by
  intro always
  let _ : Usize := .eight
  let _ : Config.Build := .arm64
  have ran : (((Daemon.new "" none).replay startingLate).bind fun own =>
      [findingHeld, retryingHeld 20000 writingOff].foldlM Chore.attempt own).map
        (fun daemon => (daemon.candidates.keys, daemon.done)) = some ([7], [7]) := by
    decide +kernel
  rw [Option.map_eq_some_iff] at ran
  rcases ran with ⟨daemon, ran, fields⟩
  rw [Option.bind_eq_some_iff] at ran
  rcases ran with ⟨own, constructed, ran⟩
  rw [Prod.mk.injEq] at fields
  have start : bookkeeping.Reachable own :=
    .initial ⟨"", none, _, Prog.Talks.of_replay constructed⟩
  have isCandidate : (7 : Pid) ∈ daemon.candidates := by
    rw [AList.mem_keys, fields.1]
    exact List.mem_cons_self
  have apart := (always daemon (start.run bookkeeping_attempt _ ran)).1 7 isCandidate
  rw [fields.2] at apart
  exact apart.1 List.mem_cons_self

end Znn.Injector
