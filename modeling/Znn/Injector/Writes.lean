import Znn.Injector.Process

/-!
# Writes to the memory of a process

`write_memory` moves whole words. A write that fails has stored a front part of its buffer, up
to the boundary of a word, and every word it reached has been written once.
-/

namespace Znn.Injector

open Interaction PtraceOps Bytes Usize

variable [Usize]

section Words

variable {address : Nat}

theorem alignDown_le (address : Nat) : alignDown address ≤ address :=
  Nat.sub_le _ _

theorem sub_alignDown_lt (address : Nat) : address - alignDown address < Usize.bytes := by
  have remainder := Nat.mod_lt address bytes_pos
  unfold alignDown
  omega

/-- An address is reached from its word. -/
theorem wrappingAdd_alignDown (small : address < count) :
    wrappingAdd (alignDown address) (address - alignDown address) = address := by
  have le := alignDown_le address
  rw [wrappingAdd_of_lt (by omega)]
  omega

theorem bytes_dvd_alignDown (address : Nat) : Usize.bytes ∣ alignDown address :=
  Nat.dvd_sub_mod address

/-- A word does not wrap. -/
theorem alignDown_add_le (small : address < count) : alignDown address + Usize.bytes ≤ count := by
  rcases bytes_dvd_alignDown address with ⟨quotient, isWord⟩
  rcases bytes_dvd_count with ⟨words, isCount⟩
  have le := alignDown_le address
  have below : Usize.bytes * quotient < Usize.bytes * words := by omega
  have next := Nat.mul_le_mul_left Usize.bytes (Nat.succ_le_of_lt (Nat.lt_of_mul_lt_mul_left below))
  rw [Nat.mul_succ] at next
  omega

theorem alignDown_add {offset : Nat} (inside : offset < Usize.bytes) :
    alignDown (alignDown address + offset) = alignDown address := by
  have isWord := Nat.mod_eq_zero_of_dvd (bytes_dvd_alignDown address)
  have remainder : (alignDown address + offset) % Usize.bytes = offset := by
    rw [Nat.add_mod, isWord, Nat.zero_add, Nat.mod_mod, Nat.mod_eq_of_lt inside]
  rw [alignDown, remainder]
  omega

/-- Before the end of its word an address is in the same one. -/
theorem alignDown_eq_of_near {distance : Nat} (small : address < count)
    (near : address + distance < alignDown address + Usize.bytes) :
    alignDown (wrappingAdd address distance) = alignDown address := by
  have wordEnd := alignDown_add_le small
  have le := alignDown_le address
  rw [wrappingAdd_of_lt (by omega)]
  have split : address + distance = alignDown address + (address + distance - alignDown address) := by
    omega
  rw [split]
  exact alignDown_add (by omega)

/-- Beyond the end of its word an address is in another one. -/
theorem alignDown_ne_of_far {distance : Nat} (small : address < count)
    (far : alignDown address + Usize.bytes ≤ address + distance)
    (near : distance + Usize.bytes ≤ count) :
    alignDown (wrappingAdd address distance) ≠ alignDown address := by
  have within := sub_alignDown_lt address
  have le := alignDown_le address
  by_cases wraps : address + distance < count
  · rw [wrappingAdd_of_lt wraps]
    have target := sub_alignDown_lt (address + distance)
    omega
  · have value : wrappingAdd address distance = address + distance - count := by
      rw [wrappingAdd, Nat.mod_eq_sub_mod (by omega), Nat.mod_eq_of_lt (by omega)]
    have targetLe := alignDown_le (wrappingAdd address distance)
    omega

end Words

/-- The words that granted pokes have written at the address. -/
def pokesAt (address : Nat) (transcript : Transcript) : List (List UInt8) :=
  transcript.filterMap fun
    | ⟨.pokeData _ target word, true⟩ => if target = address then some word else none
    | _ => none

omit [Usize] in
theorem pokesAt_append (address : Nat) (first second : Transcript) :
    pokesAt address (first ++ second) = pokesAt address first ++ pokesAt address second :=
  List.filterMap_append

/-- A call that writes a word of the process. -/
def IsPoke (pid : Pid) (exchange : Exchange Sys) : Prop :=
  ∃ address word, exchange.1 = .pokeData pid address word

/-- The bytes of the buffer from `done` to `upto` have been written. -/
structure Written (pid : Pid) (address : Nat) (buffer : List UInt8) (done upto : Nat)
    (before after : Process) : Prop where
  le : done ≤ upto
  fits : upto ≤ buffer.length
  regs : after.regs = before.regs
  header : after.header = before.header
  phase : after.phase = before.phase
  mem : after.mem =
    store before.mem (wrappingAdd address done) ((buffer.drop done).take (upto - done))
  edited : after.edited ⊆ before.edited ∪
    { target | ∃ index, done ≤ index ∧ index < upto ∧ target = wrappingAdd address index }
  heard : ∃ new, after.heard = before.heard ++ new ∧ (∀ exchange ∈ new, IsPoke pid exchange) ∧
    ∀ word, pokesAt word new = [] ∧
        (∀ index, done ≤ index → index < upto → alignDown (wrappingAdd address index) ≠ word) ∨
      pokesAt word new = [load after.mem word Usize.bytes] ∧
        (∃ index, done ≤ index ∧ index < upto ∧ alignDown (wrappingAdd address index) = word) ∧
        ∀ index, done ≤ index → index < buffer.length →
          alignDown (wrappingAdd address index) = word → index < upto

section Write

variable {pid : Pid} {address : Nat} {buffer : List UInt8} {done upto : Nat}
  {before after : Process}

theorem Written.nothing (fits : done ≤ buffer.length) :
    Written pid address buffer done done before before where
  le := le_rfl
  fits := fits
  regs := rfl
  header := rfl
  phase := rfl
  mem := by simp
  edited := Set.subset_union_left
  heard := ⟨[], by simp, by simp, fun _ => .inl ⟨rfl, by omega⟩⟩

/-- What a write does not touch it does not change. -/
theorem Written.load_eq (written : Written pid address buffer done upto before after)
    (short : buffer.length ≤ count) {target : Nat} (small : target < count)
    (untouched : ∀ index, done ≤ index → index < upto →
      alignDown (wrappingAdd address index) ≠ alignDown target) :
    load after.mem (alignDown target) Usize.bytes =
      load before.mem (alignDown target) Usize.bytes := by
  apply List.map_congr_left
  intro offset inside
  rw [List.mem_range] at inside
  rw [written.mem, store_of_not_covers]
  have fits := written.fits
  rw [covers_iff (by simp; omega)]
  rintro ⟨index, near, same⟩
  have bound : index < upto - done := by simp at near; omega
  rw [wrappingAdd_wrappingAdd] at same
  apply untouched (done + index) (by omega) (by omega)
  have wordEnd := alignDown_add_le small
  rw [← same, wrappingAdd_of_lt (by omega), alignDown_add inside]

theorem Written.mem_at {index : Nat} (written : Written pid address buffer 0 upto before after)
    (short : buffer.length ≤ count) (reached : index < upto) (inside : index < buffer.length) :
    after.mem (wrappingAdd address index) = buffer[index] := by
  have fits := written.fits
  have place : wrappingAdd address index = wrappingAdd (wrappingAdd address 0) index := by
    rw [wrappingAdd_wrappingAdd, Nat.zero_add]
  rw [written.mem, place, store_at (by simp; omega) (by simp; omega)]
  simp

/-- A write that is complete has left its buffer in the memory. -/
theorem Written.load_whole (written : Written pid address buffer 0 upto before after)
    (short : buffer.length ≤ count) (whole : upto = buffer.length) :
    load after.mem address buffer.length = buffer := by
  apply List.ext_getElem
  · simp
  · intro index _ inside
    simp only [load, List.getElem_map, List.getElem_range]
    exact written.mem_at short (by omega) inside

theorem Written.mem_off {target : Nat} (written : Written pid address buffer 0 upto before after)
    (short : buffer.length ≤ count) (off : ¬Covers address upto target) :
    after.mem target = before.mem target := by
  have fits := written.fits
  rw [written.mem, store_of_not_covers]
  intro covered
  apply off
  rw [covers_iff (by simp; omega)] at covered
  rcases covered with ⟨index, near, same⟩
  rw [covers_iff (by omega)]
  have bound : index < upto := by simp at near; omega
  refine ⟨index, bound, ?_⟩
  rw [same, wrappingAdd_wrappingAdd, Nat.zero_add]

/-- A poke that is granted. -/
def Process.poked (process : Process) (pid : Pid) (target : Nat) (word : List UInt8) : Process :=
  { process.poke target word with
    heard := process.heard ++ [⟨.pokeData pid target word, true⟩] }

/-- How many bytes a turn of the loop writes, `current` being where it writes them. -/
def chunk (buffer : List UInt8) (done current : Nat) : Nat :=
  min (buffer.length - done) (Usize.bytes - (current - alignDown current))

theorem chunk_pos (inside : done < buffer.length) (current : Nat) :
    0 < chunk buffer done current := by
  have remainder := sub_alignDown_lt current
  unfold chunk
  omega

/-- One turn of the loop and the turns that follow it. -/
theorem Written.turn {word : List UInt8} (short : buffer.length + Usize.bytes ≤ count)
    (inside : done < buffer.length) (length : word.length = Usize.bytes)
    (stores : store before.mem (alignDown (wrappingAdd address done)) word =
      store before.mem (wrappingAdd address done)
        ((buffer.drop done).take (chunk buffer done (wrappingAdd address done))))
    (rest : Written pid address buffer (done + chunk buffer done (wrappingAdd address done)) upto
      (before.poked pid (alignDown (wrappingAdd address done)) word) after) :
    Written pid address buffer done upto before after := by
  have small := wrappingAdd_lt address done
  have within := sub_alignDown_lt (wrappingAdd address done)
  have wordLe := alignDown_le (wrappingAdd address done)
  have shift (index : Nat) (later : done ≤ index) :
      wrappingAdd address index = wrappingAdd (wrappingAdd address done) (index - done) := by
    rw [wrappingAdd_wrappingAdd]
    congr
    omega
  have chunkLe : chunk buffer done (wrappingAdd address done) ≤ buffer.length - done :=
    Nat.min_le_left _ _
  have restLe := rest.le
  have restFits := rest.fits
  -- Behind the chunk the write has left the word it pokes first.
  have leaves : ∀ index, done + chunk buffer done (wrappingAdd address done) ≤ index →
      index < buffer.length →
      alignDown (wrappingAdd address index) ≠ alignDown (wrappingAdd address done) := by
    intro index later inBuffer
    rw [shift index (by omega)]
    apply alignDown_ne_of_far small
    · unfold chunk at later
      omega
    · omega
  have stays : ∀ index, done ≤ index → index < done + chunk buffer done (wrappingAdd address done) →
      alignDown (wrappingAdd address index) = alignDown (wrappingAdd address done) := by
    intro index after before
    rw [shift index after]
    apply alignDown_eq_of_near small
    unfold chunk at before
    omega
  have chunkPos := chunk_pos inside (wrappingAdd address done)
  generalize currentIs : wrappingAdd address done = current at *
  generalize chunk buffer done current = taken at *
  have lengthPart : ((buffer.drop done).take taken).length = taken := by simp; omega
  have wordIsThere : load (store before.mem (alignDown current) word) (alignDown current)
      Usize.bytes = word := by
    have fitsWord : word.length ≤ count := by omega
    rw [← length]
    exact load_store fitsWord
  refine ⟨by omega, restFits, rest.regs, rest.header, rest.phase, ?_, ?_, ?_⟩
  · have pieces : (buffer.drop done).take (upto - done) = (buffer.drop done).take taken ++
        (buffer.drop (done + taken)).take (upto - (done + taken)) := by
      rw [← List.drop_drop, ← List.take_add]
      congr 1
      omega
    rw [rest.mem, Process.poked, Process.poke, stores, pieces, currentIs, ← store_append]
    · rw [lengthPart, shift (done + taken) (by omega)]
      congr
      omega
    · simp
      omega
  · intro target isEdited
    rcases rest.edited isEdited with (already | changed) | ⟨index, later, bound, isTarget⟩
    · exact .inl already
    · right
      change store before.mem (alignDown current) word target ≠ before.mem target at changed
      rw [stores] at changed
      have covered : Covers current taken target := by
        by_contra outside
        rw [← lengthPart] at outside
        exact changed (store_of_not_covers outside)
      rw [covers_iff (by omega)] at covered
      rcases covered with ⟨index, bound, isTarget⟩
      refine ⟨done + index, by omega, by omega, ?_⟩
      rw [isTarget, shift (done + index) (by omega)]
      congr
      omega
    · exact .inr ⟨index, by omega, bound, isTarget⟩
  · rcases rest.heard with ⟨new, heard, arePokes, atWord⟩
    refine ⟨⟨.pokeData pid (alignDown current) word, true⟩ :: new, ?_, ?_, ?_⟩
    · rw [heard, Process.poked, List.append_assoc]
      rfl
    · intro exchange present
      rcases List.mem_cons.mp present with rfl | present
      · exact ⟨_, _, rfl⟩
      · exact arePokes exchange present
    · intro target
      by_cases first : target = alignDown current
      · subst first
        right
        have later : pokesAt (alignDown current) new = [] := by
          rcases atWord (alignDown current) with ⟨none, _⟩ | ⟨_, ⟨index, after, bound, same⟩, _⟩
          · exact none
          · exact absurd same (leaves index after (by omega))
        refine ⟨?_, ⟨done, le_rfl, by omega, by rw [currentIs]⟩, ?_⟩
        · have unchanged := rest.load_eq (by omega) small
            fun index after bound => leaves index after (by omega)
          have poked : pokesAt (alignDown current)
              (⟨.pokeData pid (alignDown current) word, true⟩ :: new) =
                word :: pokesAt (alignDown current) new := by
            simp [pokesAt]
          rw [unchanged, poked, later]
          exact congrArg (fun stored => [stored]) wordIsThere.symm
        · intro index after bound same
          by_contra beyond
          exact leaves index (by omega) bound same
      · have skip : pokesAt target (⟨.pokeData pid (alignDown current) word, true⟩ :: new) =
            pokesAt target new := by
          simp [pokesAt, Ne.symm first]
        rw [skip]
        rcases atWord target with ⟨none, untouched⟩ | ⟨one, ⟨index, after, bound, same⟩, whole⟩
        · left
          refine ⟨none, fun index after bound same => ?_⟩
          by_cases inRest : done + taken ≤ index
          · exact untouched index inRest bound same
          · exact first (same ▸ stays index after (by omega))
        · right
          refine ⟨one, ⟨index, by omega, bound, same⟩, ?_⟩
          intro other otherAfter otherBound otherSame
          by_cases inRest : done + taken ≤ other
          · exact whole other inRest otherBound otherSame
          · omega

theorem Written.refused {target : Nat} {word : List UInt8} (fits : done ≤ buffer.length) :
    Written pid address buffer done done before
      { before with heard := before.heard ++ [⟨.pokeData pid target word, false⟩] } := by
  refine ⟨le_rfl, fits, rfl, rfl, rfl, by simp, Set.subset_union_left, _, rfl, ?_, ?_⟩
  · intro exchange present
    cases List.mem_singleton.mp present
    exact ⟨target, word, rfl⟩
  · intro other
    left
    exact ⟨by simp [pokesAt], by omega⟩

theorem wp_writeFrom (fuel : Nat) (short : buffer.length + Usize.bytes ≤ count)
    (fits : done ≤ buffer.length) (enough : buffer.length ≤ done + fuel) :
    (writeFrom pid address buffer fuel done).wp Process.machine
      (fun ok after => ∃ upto, Written pid address buffer done upto before after ∧
        (ok = true ↔ upto = buffer.length)) before := by
  induction fuel generalizing done before with
  | zero => exact ⟨done, Written.nothing fits, iff_of_true rfl (by omega)⟩
  | succ fuel ih =>
      unfold writeFrom
      split
      case isFalse ended => exact ⟨done, Written.nothing fits, iff_of_true rfl (by omega)⟩
      case isTrue inside =>
        have within := sub_alignDown_lt (wrappingAdd address done)
        have wordLe := alignDown_le (wrappingAdd address done)
        have small := wrappingAdd_lt address done
        have chunkPos := chunk_pos inside (wrappingAdd address done)
        have chunkLe : chunk buffer done (wrappingAdd address done) ≤ buffer.length - done :=
          Nat.min_le_left _ _
        have chunkFits : chunk buffer done (wrappingAdd address done) ≤
            Usize.bytes - (wrappingAdd address done - alignDown (wrappingAdd address done)) :=
          Nat.min_le_right _ _
        have lengthPart : ((buffer.drop done).take
            (chunk buffer done (wrappingAdd address done))).length =
              chunk buffer done (wrappingAdd address done) := by
          simp
          omega
        -- Whatever word is poked, the turns behind it are given by the induction.
        have poke (word : List UInt8) (length : word.length = Usize.bytes)
            (stores : store before.mem (alignDown (wrappingAdd address done)) word =
              store before.mem (wrappingAdd address done)
                ((buffer.drop done).take (chunk buffer done (wrappingAdd address done)))) :
            (do
              if !(← perform (.pokeData pid (alignDown (wrappingAdd address done)) word)) then
                return false
              writeFrom pid address buffer fuel
                (done + chunk buffer done (wrappingAdd address done))).wp Process.machine
              (fun ok after => ∃ upto, Written pid address buffer done upto before after ∧
                (ok = true ↔ upto = buffer.length)) before := by
          rintro ok after ⟨_, rfl⟩
          cases ok with
          | false => exact ⟨done, Written.refused fits, iff_of_false Bool.false_ne_true (by omega)⟩
          | true =>
              apply Prog.wp_mono (ih (by omega) (by omega))
              rintro ok last ⟨upto, rest, complete⟩
              exact ⟨upto, Written.turn short inside length stores rest, complete⟩
        dsimp only
        split
        case isTrue _ =>
          intro existing after step
          have answer := step.1
          have same : after = before := by
            apply Process.step_reads _ step
            trivial
          subst same
          rcases answer with rfl | rfl
          · exact ⟨done, Written.nothing fits, iff_of_false Bool.false_ne_true (by omega)⟩
          · apply poke
            · rw [length_splice, length_load]
              simp only [List.length_take, List.length_drop, length_load]
              omega
            · rw [store_splice, wrappingAdd_alignDown small]
              · rfl
              · simp only [List.length_take, List.length_drop]
                omega
              · omega
        case isFalse whole =>
          push Not at whole
          rcases whole with ⟨atStart, full⟩
          have isWord : splice (List.replicate Usize.bytes 0)
              (wrappingAdd address done - alignDown (wrappingAdd address done))
              ((buffer.drop done).take (chunk buffer done (wrappingAdd address done))) =
                (buffer.drop done).take (chunk buffer done (wrappingAdd address done)) := by
            have covers : Usize.bytes - chunk buffer done (wrappingAdd address done) = 0 :=
              Nat.sub_eq_zero_of_le full
            rw [atStart, splice, lengthPart]
            simp [covers]
          apply poke
          · change (splice _ _ (List.take (chunk buffer done (wrappingAdd address done)) _)).length = _
            rw [isWord, lengthPart]
            exact Nat.le_antisymm (by omega) full
          · change store _ _ (splice _ _ (List.take (chunk buffer done (wrappingAdd address done)) _)) = _
            rw [isWord]
            congr
            omega

theorem wp_writeMemory (short : buffer.length + Usize.bytes ≤ count) :
    (writeMemory pid address buffer).wp Process.machine
      (fun ok after => ∃ upto, Written pid address buffer 0 upto before after ∧
        (ok = true ↔ upto = buffer.length)) before :=
  wp_writeFrom buffer.length short (by omega) (by omega)

/-- What a read returns is in the memory. -/
theorem wp_readFrom (length fuel done : Nat) (buffer : List UInt8)
    (enough : length ≤ done + fuel) (fits : done ≤ length)
    (read : buffer = load before.mem address done) :
    (readFrom pid address length fuel done buffer).wp Process.machine
      (fun result after => after = before ∧
        ∀ bytes, result = some bytes → bytes = load before.mem address length) before := by
  induction fuel generalizing done buffer with
  | zero =>
      refine ⟨rfl, ?_⟩
      rintro bytes ⟨⟩
      rw [read]
      congr
      omega
  | succ fuel ih =>
      have remainder := sub_alignDown_lt (wrappingAdd address done)
      unfold readFrom
      split
      case isFalse ended =>
        refine ⟨rfl, ?_⟩
        rintro bytes ⟨⟩
        rw [read]
        congr
        omega
      case isTrue inside =>
        intro word after step
        have answer := step.1
        have same : after = before := by
          apply Process.step_reads _ step
          trivial
        subst same
        rcases answer with rfl | rfl
        · exact ⟨rfl, by simp⟩
        · apply ih
          · omega
          · omega
          · rw [read, load_append, load_slice _ _ _ _ _ (by omega),
              wrappingAdd_alignDown (wrappingAdd_lt address done)]

theorem wp_readMemory (length : Nat) :
    (readMemory pid address length).wp Process.machine
      (fun result after => after = before ∧
        ∀ bytes, result = some bytes → bytes = load before.mem address length) before :=
  wp_readFrom length length 0 [] (by omega) (by omega) rfl

end Write

end Znn.Injector
