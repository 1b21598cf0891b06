import Znn.Injector.Helpers
import Znn.Injector.Refusal

/-!
# The entry breakpoint

`set_entry_breakpoint` writes an instruction over the entry of a target and `restore_entry` writes
back what was there. Both go through `write_memory`, word by word. If a word is written and a
request for the next one is refused, then half of the instruction stays behind and nobody knows.
-/

namespace Znn.Injector

open Interaction PtraceOps Trace Bytes Usize

variable [Usize] {pid : Pid} {tracee armed : Tracee} {before after called : Process}
  {thumb : Bool} {history : History}

/-- A poke that was granted. -/
def Pokes : Exchange Sys → Prop
  | ⟨.pokeData _ _ _, ok⟩ => ok = true
  | _ => False

/-- A request was refused after a word had been written. -/
def Torn (transcript : Transcript) : Prop :=
  ∃ front behind, transcript = front ++ behind ∧ (∃ exchange ∈ front, Pokes exchange) ∧
    ∃ exchange ∈ behind, Refuses exchange

/-- The memory of the process has the part of the instruction that is in the first of its words. -/
def SameFront (process : Process) (entry : Nat) (instruction : List UInt8) : Prop :=
  ∀ index (inside : index < instruction.length),
    alignDown (wrappingAdd entry index) = alignDown (wrappingAdd entry 0) →
      process.mem (wrappingAdd entry index) = instruction[index]

/-- Wherever the process has got to with its memory as it is, a `restore_entry` of which no
request is refused brings it back to what it was. -/
def Restorable (pid : Pid) (armed : Tracee) (before after : Process) : Prop :=
  ∀ called final history, called.mem = after.mem →
    (restoreEntry pid armed).Runs Process.machine.told (called, []) () (final, history) →
      (∀ event ∈ history, ¬Refuses event.2) → final.mem = before.mem

/-- The breakpoint is set, and can be taken back, or nothing has changed. -/
def SetsOrKeeps (pid : Pid) (instruction : List UInt8) (before : Process) (entry : Nat) :
    Option Tracee → Process → Prop
  | some armed, after => load after.mem entry instruction.length = instruction ∧
      Restorable pid armed before after
  | none, after => after.mem = before.mem

section Tearing

variable {address : Nat} {buffer : List UInt8} {ok : Bool} {transcript : Transcript}
  {exchange : Exchange Sys}

omit [Usize] in
theorem Refuses.not_pokes (refuses : Refuses exchange) : ¬Pokes exchange := by
  rcases exchange with ⟨request, answer⟩
  cases request with
  | pokeData =>
      intro granted
      exact Bool.false_ne_true (Eq.trans refuses.symm granted)
  | _ => exact not_false

/-- A program that ends with the first refusal. -/
def EndsRefused (ok : Bool) (transcript : Transcript) : Prop :=
  if ok then ∀ exchange ∈ transcript, ¬Refuses exchange
  else ∃ front refusal, transcript = front ++ [refusal] ∧ Refuses refusal ∧
    ∀ exchange ∈ front, ¬Refuses exchange

omit [Usize] in
theorem EndsRefused.granted (isGranted : ¬Refuses exchange) (ends : EndsRefused ok transcript) :
    EndsRefused ok (exchange :: transcript) := by
  cases ok with
  | true => exact List.forall_mem_cons.mpr ⟨isGranted, ends⟩
  | false =>
      rcases ends with ⟨front, refusal, rfl, refuses, fine⟩
      exact ⟨exchange :: front, refusal, rfl, refuses, List.forall_mem_cons.mpr ⟨isGranted, fine⟩⟩

omit [Usize] in
theorem EndsRefused.refused (refuses : Refuses exchange) : EndsRefused false [exchange] :=
  ⟨[], exchange, rfl, refuses, fun _ present => absurd present List.not_mem_nil⟩

theorem endsRefused_writeFrom (fuel done : Nat) :
    (writeFrom pid address buffer fuel done).Says EndsRefused := by
  induction fuel generalizing done with
  | zero => exact fun _ present => absurd present List.not_mem_nil
  | succ fuel ih =>
      have later : ∀ {exchange : Exchange Sys}, ¬Refuses exchange →
          (writeFrom pid address buffer fuel (done + chunk buffer done
            (wrappingAdd address done))).Says fun ok transcript =>
              EndsRefused ok (exchange :: transcript) :=
        fun granted => (ih _).mono fun _ _ ends => ends.granted granted
      unfold writeFrom
      split
      · dsimp only
        split
        · intro existing
          cases existing with
          | none =>
              apply EndsRefused.refused
              rfl
          | some existing =>
              intro ok
              cases ok with
              | false =>
                  apply EndsRefused.granted
                  · simp [Refuses]
                  · apply EndsRefused.refused
                    rfl
              | true =>
                  apply (later _).mono
                  · intro ok transcript ends
                    exact ends.granted (by simp [Refuses])
                  · simp [Refuses]
        · intro ok
          cases ok with
          | false =>
              apply EndsRefused.refused
              rfl
          | true =>
              apply later
              simp [Refuses]
      · exact fun _ present => absurd present List.not_mem_nil

omit [Usize] in
/-- A write that fails has been torn if it has written anything. -/
theorem torn_iff (ends : EndsRefused false transcript) :
    Torn transcript ↔ ∃ exchange ∈ transcript, Pokes exchange := by
  constructor
  · rintro ⟨front, behind, rfl, ⟨exchange, present, pokes⟩, _⟩
    exact ⟨exchange, List.mem_append_left _ present, pokes⟩
  · rintro ⟨exchange, present, pokes⟩
    rcases ends with ⟨front, refusal, rfl, refuses, _⟩
    rcases List.mem_append.mp present with inFront | isLast
    · exact ⟨front, [refusal], rfl, ⟨exchange, inFront, pokes⟩, refusal, List.mem_singleton_self _,
        refuses⟩
    · rw [List.mem_singleton.mp isLast] at pokes
      exact absurd pokes refuses.not_pokes

omit [Usize] in
theorem not_torn_of_granted (granted : ∀ exchange ∈ transcript, ¬Refuses exchange) :
    ¬Torn transcript := by
  rintro ⟨front, behind, rfl, _, exchange, present, refuses⟩
  exact granted exchange (List.mem_append_right _ present) refuses

omit [Usize] in
/-- A read in front of a write has no part in its being torn. -/
theorem torn_append_iff {asked : Transcript} (quiet : ∀ exchange ∈ asked, ¬Pokes exchange) :
    Torn (asked ++ transcript) ↔ Torn transcript := by
  constructor
  · rintro ⟨front, behind, split, ⟨exchange, present, pokes⟩, refused⟩
    rcases List.append_eq_append_iff.mp split with ⟨rest, rfl, rfl⟩ | ⟨rest, rfl, rfl⟩
    · refine ⟨rest, behind, rfl, ⟨exchange, ?_, pokes⟩, refused⟩
      rcases List.mem_append.mp present with isAsked | inRest
      · exact absurd pokes (quiet exchange isAsked)
      · exact inRest
    · exact absurd pokes (quiet exchange (List.mem_append_left _ present))
  · rintro ⟨front, behind, rfl, ⟨exchange, present, pokes⟩, refused⟩
    refine ⟨asked ++ front, behind, (List.append_assoc asked front behind).symm,
      ⟨exchange, List.mem_append_right _ present, pokes⟩, refused⟩

omit [Usize] in
theorem eq_of_mem_kept {exchange other : Exchange Sys} (isKept : other ∈ kept exchange.1 exchange.2) :
    other = exchange := by
  rcases exchange with ⟨request, answer⟩
  cases request <;> first
    | exact List.mem_singleton.mp isKept
    | exact absurd isKept List.not_mem_nil

omit [Usize] in
theorem mem_pokesAt {word : List UInt8} :
    word ∈ pokesAt address transcript ↔
      ∃ pid, (⟨.pokeData pid address word, true⟩ : Exchange Sys) ∈ transcript := by
  rw [pokesAt, List.mem_filterMap]
  constructor
  · rintro ⟨⟨request, answer⟩, present, found⟩
    cases request with
    | pokeData pid target stored =>
        cases answer with
        | false => cases found
        | true =>
            dsimp only at found
            rw [Option.ite_none_right_eq_some] at found
            rcases found with ⟨rfl, ⟨⟩⟩
            exact ⟨pid, present⟩
    | _ => cases found
  · rintro ⟨pid, present⟩
    exact ⟨_, present, if_pos rfl⟩

/-- What a process has heard of a run is what is kept of the run's history. -/
theorem heard_told {α : Type} (program : Prog Sys α) (history : History) :
    program.wp Process.machine.told (fun _ after => ∃ new, after.2 = history ++ new ∧
      after.1.heard = before.heard ++ (new.map Prod.snd).flatMap fun exchange =>
        kept exchange.1 exchange.2) (before, history) := by
  induction program generalizing before history with
  | pure value => exact ⟨[], (List.append_nil _).symm, (List.append_nil _).symm⟩
  | call request next ih =>
      rintro answer ⟨middle, told⟩ ⟨⟨_, isMiddle⟩, isTold⟩
      dsimp only at isMiddle isTold
      apply Prog.wp_mono (ih answer told)
      rintro value ⟨last, ended⟩ ⟨new, isNew, heard⟩
      refine ⟨(before, ⟨request, answer⟩) :: new, ?_, ?_⟩
      · rw [isNew, isTold, List.append_assoc]
        rfl
      · rw [heard, isMiddle, List.append_assoc]
        rfl

/-- A write has written something if a poke of it was granted. -/
theorem Written.pos_iff {upto : Nat} {transcript : Transcript}
    (written : Written pid address buffer 0 upto before after)
    (heard : after.heard = before.heard ++ transcript.flatMap fun exchange =>
      kept exchange.1 exchange.2) :
    0 < upto ↔ ∃ exchange ∈ transcript, Pokes exchange := by
  rcases written.heard with ⟨new, isNew, _, atWord⟩
  rw [isNew, List.append_cancel_left_eq] at heard
  subst heard
  constructor
  · intro some
    rcases atWord (alignDown (wrappingAdd address 0)) with ⟨_, untouched⟩ | ⟨poked, _⟩
    · exact absurd rfl (untouched 0 (Nat.le_refl 0) some)
    · have member : load after.mem (alignDown (wrappingAdd address 0)) Usize.bytes ∈
          pokesAt (alignDown (wrappingAdd address 0)) (transcript.flatMap fun exchange =>
            kept exchange.1 exchange.2) := by
        rw [poked]
        exact List.mem_singleton_self _
      rcases mem_pokesAt.mp member with ⟨pid, present⟩
      rcases List.mem_flatMap.mp present with ⟨exchange, asked, isKept⟩
      rw [← eq_of_mem_kept isKept] at asked
      exact ⟨_, asked, rfl⟩
  · rintro ⟨⟨request, answer⟩, present, pokes⟩
    cases request with
    | pokeData pid target word =>
        cases answer with
        | false => cases pokes
        | true =>
            have member : word ∈ pokesAt target (transcript.flatMap fun exchange =>
                kept exchange.1 exchange.2) :=
              mem_pokesAt.mpr ⟨pid, List.mem_flatMap.mpr ⟨_, present, List.mem_singleton_self _⟩⟩
            rcases atWord target with ⟨none, _⟩ | ⟨_, ⟨index, _, bound, _⟩, _⟩
            · rw [none] at member
              exact absurd member List.not_mem_nil
            · exact Nat.lt_of_le_of_lt (Nat.zero_le index) bound
    | _ => exact pokes.elim

/-- A write with its history: it ends with the first refusal, and has written anything if a poke
was granted before. -/
theorem wp_writeMemory_told (short : buffer.length + Usize.bytes ≤ count) (history : History) :
    (writeMemory pid address buffer).wp Process.machine.told (fun ok after =>
      ∃ upto new, after.2 = history ++ new ∧ Written pid address buffer 0 upto before after.1 ∧
        (ok = true ↔ upto = buffer.length) ∧ EndsRefused ok (new.map Prod.snd) ∧
          (0 < upto ↔ ∃ exchange ∈ new.map Prod.snd, Pokes exchange)) (before, history) := by
  apply Prog.wp_mono (Prog.wp_and (Prog.wp_told_says (wp_writeMemory short)
    (endsRefused_writeFrom buffer.length 0) history) (heard_told _ history))
  rintro ok after ⟨⟨⟨upto, written, complete⟩, new, isNew, ends⟩, other, isOther, heard⟩
  rw [isNew, List.append_cancel_left_eq] at isOther
  subst isOther
  exact ⟨upto, new, isNew, written, complete, ends, written.pos_iff heard⟩

end Tearing

section Words

variable {address : Nat}

/-- A word's length beyond the end of a word is the next one. -/
theorem alignDown_of_next {distance : Nat}
    (far : alignDown address + Usize.bytes ≤ address + distance)
    (near : address + distance < alignDown address + 2 * Usize.bytes) :
    alignDown (wrappingAdd address distance) = (alignDown address + Usize.bytes) % count := by
  have nextSmall : (alignDown address + Usize.bytes) % count < count := Nat.mod_lt _ count_pos
  have isWord : Usize.bytes ∣ (alignDown address + Usize.bytes) % count :=
    (Nat.dvd_mod_iff bytes_dvd_count).mpr
      (Nat.dvd_add (bytes_dvd_alignDown address) (Nat.dvd_refl _))
  have aligned : alignDown ((alignDown address + Usize.bytes) % count) =
      (alignDown address + Usize.bytes) % count := by
    rw [alignDown, Nat.mod_eq_zero_of_dvd isWord, Nat.sub_zero]
  have same : wrappingAdd address distance =
      wrappingAdd ((alignDown address + Usize.bytes) % count)
        (address + distance - (alignDown address + Usize.bytes)) := by
    rw [wrappingAdd, wrappingAdd, Nat.mod_add_mod]
    congr 1
    omega
  rw [same, alignDown_eq_of_near nextSmall (by rw [aligned]; omega), aligned]

/-- A short run of bytes is in two words at most. -/
theorem same_word_of_short {start first second : Nat} (firstShort : first < Usize.bytes)
    (secondShort : second < Usize.bytes)
    (firstOut : alignDown (wrappingAdd start first) ≠ alignDown (wrappingAdd start 0))
    (secondOut : alignDown (wrappingAdd start second) ≠ alignDown (wrappingAdd start 0)) :
    alignDown (wrappingAdd start first) = alignDown (wrappingAdd start second) := by
  have small := wrappingAdd_lt start 0
  have shift (index : Nat) : wrappingAdd start index = wrappingAdd (wrappingAdd start 0) index := by
    rw [wrappingAdd_wrappingAdd, Nat.zero_add]
  have within := sub_alignDown_lt (wrappingAdd start 0)
  have le := alignDown_le (wrappingAdd start 0)
  rw [shift first] at firstOut ⊢
  rw [shift second] at secondOut ⊢
  have firstFar : alignDown (wrappingAdd start 0) + Usize.bytes ≤ wrappingAdd start 0 + first := by
    by_contra near
    exact firstOut (alignDown_eq_of_near small (by omega))
  have secondFar : alignDown (wrappingAdd start 0) + Usize.bytes ≤
      wrappingAdd start 0 + second := by
    by_contra near
    exact secondOut (alignDown_eq_of_near small (by omega))
  rw [alignDown_of_next firstFar (by omega), alignDown_of_next secondFar (by omega)]

end Words

section Setting

variable {entry upto : Nat} {instruction : List UInt8}

/-- What has been written of a short instruction before the write failed is nothing, or all of it
that is in the first word. -/
theorem Written.front (written : Written pid entry instruction 0 upto before after)
    (short : instruction.length ≤ Usize.bytes) (part : upto < instruction.length) (some : 0 < upto)
    {index : Nat} (inside : index < instruction.length) :
    index < upto ↔ alignDown (wrappingAdd entry index) = alignDown (wrappingAdd entry 0) := by
  rcases written.heard with ⟨new, _, _, atWord⟩
  have whole : ∀ reached, reached < upto → ∀ other, other < instruction.length →
      alignDown (wrappingAdd entry other) = alignDown (wrappingAdd entry reached) →
        other < upto := by
    intro reached bound other otherInside same
    rcases atWord (alignDown (wrappingAdd entry reached)) with ⟨_, untouched⟩ | ⟨_, _, whole⟩
    · exact absurd rfl (untouched reached (Nat.zero_le _) bound)
    · exact whole other (Nat.zero_le _) otherInside same
  constructor
  · intro reached
    by_contra out
    -- Then the write has got through both words, and so through all of the instruction.
    have last : instruction.length - 1 < upto := by
      by_cases lastOut : alignDown (wrappingAdd entry (instruction.length - 1)) =
          alignDown (wrappingAdd entry 0)
      · exact whole 0 some _ (by omega) lastOut
      · exact whole index reached _ (by omega)
          (same_word_of_short (by omega) (by omega) lastOut out)
    omega
  · exact whole 0 some index inside

theorem Written.mem_eq_iff (written : Written pid entry instruction 0 upto before after)
    (short : instruction.length + Usize.bytes ≤ count) :
    after.mem = before.mem ↔ ∀ index (inside : index < instruction.length), index < upto →
      before.mem (wrappingAdd entry index) = instruction[index] := by
  have fits := written.fits
  constructor
  · intro same index inside reached
    rw [← same]
    exact written.mem_at (by omega) reached inside
  · intro same
    funext address
    by_cases covered : Covers entry upto address
    · rw [covers_iff (by omega)] at covered
      rcases covered with ⟨index, reached, rfl⟩
      rw [written.mem_at (by omega) reached (by omega), same index (by omega) reached]
    · exact written.mem_off (by omega) covered

/-- A write of a short instruction that fails leaves the memory as it was if it has written
nothing, or nothing new. -/
theorem Written.kept_iff (written : Written pid entry instruction 0 upto before after)
    (short : instruction.length ≤ Usize.bytes) (room : instruction.length + Usize.bytes ≤ count)
    (part : upto < instruction.length) :
    after.mem = before.mem ↔ ¬0 < upto ∨ SameFront before entry instruction := by
  rw [written.mem_eq_iff room]
  by_cases some : 0 < upto
  · rw [SameFront]
    simp only [not_true, false_or, some]
    constructor
    · intro same index inside front
      exact same index inside ((written.front short part some inside).mpr front)
    · intro same index inside reached
      exact same index inside ((written.front short part some inside).mp reached)
  · simp only [some, not_false_eq_true, true_or, iff_true]
    intro index _ reached
    omega

/-- What a read of memory asks for is granted where it returns anything. -/
theorem says_readFrom (address length fuel done : Nat) (buffer : List UInt8) :
    (readFrom pid address length fuel done buffer).Says fun result transcript =>
      (∀ exchange ∈ transcript, ¬Pokes exchange) ∧
        (result.isSome → ∀ exchange ∈ transcript, ¬Refuses exchange) := by
  induction fuel generalizing done buffer with
  | zero => simp [readFrom, Prog.Says]
  | succ fuel ih =>
      unfold readFrom
      split
      · intro word
        cases word with
        | none =>
            refine ⟨?_, fun isSome => absurd isSome Bool.false_ne_true⟩
            intro exchange present
            rw [List.mem_singleton.mp present]
            exact not_false
        | some word =>
            apply (ih _ _).mono
            rintro result transcript ⟨quiet, granted⟩
            refine ⟨List.forall_mem_cons.mpr ⟨not_false, quiet⟩, ?_⟩
            intro isSome
            exact List.forall_mem_cons.mpr ⟨by simp [Refuses], granted isSome⟩
      · simp [Prog.Says]

/-- A breakpoint that has been set can be taken back. -/
theorem restorable_of_hasBreakpoint (breakpoint : HasBreakpoint pid armed before after) :
    Restorable pid armed before after := by
  rcases breakpoint.set with ⟨instruction, short, nonempty, size, original, set⟩
  intro called final history same run granted
  have sizes : (armed.originalInstruction.take instruction.length).length =
      instruction.length := by
    rw [original, length_load]
  suffices restores : (restoreEntry pid armed).wp Process.machine.told (fun _ after =>
      (∀ event ∈ after.2, ¬Refuses event.2) → after.1.mem = before.mem) (called, []) from
    run.of_wp restores granted
  unfold restoreEntry
  rw [size, if_pos nonempty, Prog.bind_eq, Prog.wp_bind]
  apply Prog.wp_mono (wp_writeMemory_told (by rw [sizes]; exact short) [])
  rintro ok ⟨restored, told⟩ ⟨upto, new, isNew, written, complete, ends, _⟩ answer ⟨last, ended⟩
    ⟨⟨_, isLast⟩, isEnded⟩ granted
  dsimp only at isNew isLast isEnded granted written ⊢
  have fine : ∀ exchange ∈ new.map Prod.snd, ¬Refuses exchange := by
    intro exchange present
    rcases List.mem_map.mp present with ⟨event, inNew, rfl⟩
    apply granted event
    rw [isEnded, isNew]
    exact List.mem_append_left _ inNew
  have isOk : ok = true := by
    cases ok with
    | true => rfl
    | false =>
        rcases ends with ⟨front, refusal, isFront, refuses, _⟩
        exact absurd refuses (fine refusal (by rw [isFront]; simp))
  have whole := complete.mp isOk
  have kept : last.mem = restored.mem := by
    rw [isLast]
    rfl
  rw [kept]
  funext address
  by_cases covered : Covers armed.entry instruction.length address
  · rw [covers_iff (by omega)] at covered
    rcases covered with ⟨index, inside, rfl⟩
    rw [written.mem_at (by omega) (by omega) (by omega)]
    simp [original, load]
  · rw [written.mem_off (by omega) (by rwa [whole, sizes]), same, set.mem_off (by omega) covered]

end Setting

section Arming

/-- The claims of one run of `set_entry_breakpoint` about the memory are met unless it was torn,
and also then if the first word had its part of the instruction before. -/
theorem wp_setEntryBreakpoint_told (thumb : Bool) :
    (setEntryBreakpoint pid tracee thumb).wp Process.machine.told (fun result after =>
      SetsOrKeeps pid (tracee.arch.breakpoint thumb) before tracee.entry result after.1 ↔
        ¬Torn (after.2.map Prod.snd) ∨
          SameFront before tracee.entry (tracee.arch.breakpoint thumb)) (before, []) := by
  have nothingTold : ¬Torn [] := not_torn_of_granted fun _ present => absurd present List.not_mem_nil
  by_cases known : tracee.arch = .unknown
  · have empty : tracee.arch.breakpoint thumb = [] := by
      rw [known]
      cases thumb <;> rfl
    unfold setEntryBreakpoint
    rw [empty]
    exact iff_of_true rfl (.inl nothingTold)
  rcases breakpoint_fits known thumb with ⟨nonempty, fits⟩
  have small : (tracee.arch.breakpoint thumb).length ≤ Usize.bytes := by
    have four : (tracee.arch.breakpoint thumb).length ≤ 4 := by
      cases tracee.arch <;> cases thumb <;> decide
    rcases bytes_eq with narrow | wide <;> omega
  have short : (tracee.arch.breakpoint thumb).length + Usize.bytes ≤ count :=
    small_count (Nat.le_trans fits (by decide))
  have usable : ¬((tracee.arch.breakpoint thumb).isEmpty ||
      decide ((tracee.arch.breakpoint thumb).length > INSTRUCTION_CAPACITY)) = true := by
    simp only [Bool.or_eq_true, List.isEmpty_iff, decide_eq_true_eq, not_or]
    exact ⟨fun empty => nonempty (by simp [empty]), by omega⟩
  unfold setEntryBreakpoint
  dsimp only
  rw [if_neg usable, Prog.bind_eq, Prog.wp_bind]
  apply Prog.wp_mono (Prog.wp_told_says (wp_readMemory _) (says_readFrom _ _ _ _ _) [])
  rintro original ⟨_, told⟩ ⟨⟨rfl, isOriginal⟩, asked, isAsked, quiet, granted⟩
  dsimp only at isAsked
  rw [List.nil_append] at isAsked
  subst isAsked
  cases original with
  | none =>
      refine iff_of_true rfl (.inl ?_)
      rintro ⟨front, behind, split, ⟨exchange, present, pokes⟩, _⟩
      exact quiet exchange (by rw [split]; exact List.mem_append_left _ present) pokes
  | some original =>
      dsimp only
      rw [Prog.bind_eq, Prog.wp_bind]
      apply Prog.wp_mono (wp_writeMemory_told short told)
      rintro ok ⟨last, ended⟩ ⟨upto, new, isEnded, written, complete, ends, poked⟩
      dsimp only at isEnded written
      subst isEnded
      cases ok with
      | false =>
          have part : upto < (tracee.arch.breakpoint thumb).length := by
            have fits := written.fits
            have := mt complete.mpr Bool.false_ne_true
            omega
          -- Nothing of the read counts: none of it is a poke and none of it was refused.
          have isTorn : Torn ((told ++ new).map Prod.snd) ↔ 0 < upto := by
            rw [List.map_append, poked, ← torn_iff ends]
            exact torn_append_iff quiet
          simp only [Bool.not_false, if_true]
          change last.mem = _ ↔ _
          rw [isTorn]
          exact written.kept_iff small short part
      | true =>
          have whole := complete.mp rfl
          subst whole
          have read := isOriginal original rfl
          refine iff_of_true ⟨written.load_whole (by omega) rfl, restorable_of_hasBreakpoint ?_⟩ (.inl ?_)
          · refine ⟨_, short, nonempty, rfl, ?_, written⟩
            rw [List.take_left' (by rw [read, length_load])]
            exact read
          · apply not_torn_of_granted
            rw [List.map_append]
            exact List.forall_mem_append.mpr ⟨granted rfl, ends⟩

/-- An arming is atomic exactly if it is not torn, or if the first of its words had its part of
the instruction before. -/
theorem setsOrKeeps_iff {result : Option Tracee} {history : History}
    (run : (setEntryBreakpoint pid tracee thumb).Runs Process.machine.told (before, []) result
      (after, history)) :
    SetsOrKeeps pid (tracee.arch.breakpoint thumb) before tracee.entry result after ↔
      ¬Torn (history.map Prod.snd) ∨
        SameFront before tracee.entry (tracee.arch.breakpoint thumb) :=
  run.of_wp (wp_setEntryBreakpoint_told thumb)

end Arming

section Runs

/-- The law for every run. -/
def ArmingAtomic : Prop :=
  ∀ pid tracee thumb before result after,
    (setEntryBreakpoint pid tracee thumb).Runs Process.machine.told (before, []) result after →
      SetsOrKeeps pid (tracee.arch.breakpoint thumb) before tracee.entry result after.1

/-- A program whose first instruction begins two bytes before the end of a word. -/
def astrideR : Tracee :=
  { Tracee.new .file .riscv64 with entry := 0x1006 }

/-- The words from `0x1008` on cannot be written. -/
def halfWritable : (request : Call) → request.Answer
  | .pokeData _ address _ => decide (address < 0x1008)
  | request => runningA (some []) request

/-- The arming of it by a 64-bit tracer. -/
def armingR (script : (request : Call) → request.Answer) : Option Tracee × (Process × History) :=
  Prog.eval (I := Sys) (toldA script) (@setEntryBreakpoint .eight 100 astrideR false)
    (trappedAt .riscv64 0x1006, [])

omit [Usize] in
theorem runs_armingR (script : (request : Call) → request.Answer) :
    (@setEntryBreakpoint .eight 100 astrideR false).Runs (@Process.machine .eight).told
      (trappedAt .riscv64 0x1006, []) (armingR script).1 (armingR script).2 :=
  Prog.runs_eval (I := Sys) (sound_toldA script) _ _

omit [Usize] in
/-- If the second word is refused, then the first two bytes of the instruction stay behind. -/
theorem half_instruction_left : ¬@ArmingAtomic .eight := by
  intro always
  have keeps := always 100 astrideR false (trappedAt .riscv64 0x1006) _ _
    (runs_armingR halfWritable)
  have failed : (armingR halfWritable).1.isNone = true := by decide +kernel
  have left : (armingR halfWritable).2.1.mem 0x1006 = 0x73 := by decide +kernel
  rw [Option.isNone_iff_eq_none.mp failed] at keeps
  have same : (armingR halfWritable).2.1.mem 0x1006 = 0 := congrFun keeps 0x1006
  rw [left] at same
  cases same

omit [Usize] in
/-- Where both words are granted, the breakpoint is set. -/
theorem sets_astride_granted :
    @SetsOrKeeps .eight 100 (astrideR.arch.breakpoint false) (trappedAt .riscv64 0x1006) 0x1006
      (armingR (runningA (some []))).1 (armingR (runningA (some []))).2.1 := by
  apply (@setsOrKeeps_iff .eight 100 astrideR (trappedAt .riscv64 0x1006)
    (armingR (runningA (some []))).2.1 false _ (armingR (runningA (some []))).2.2
    (runs_armingR (runningA (some [])))).mpr
  left
  apply not_torn_of_granted
  have granted : ((armingR (runningA (some []))).2.2.map Prod.snd).all
      (fun exchange => decide (¬Refuses exchange)) = true := by
    decide +kernel
  intro exchange present
  exact of_decide_eq_true (List.all_eq_true.mp granted exchange present)

end Runs

end Znn.Injector
