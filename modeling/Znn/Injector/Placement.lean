import Znn.Injector.Mode

/-!
# Where a target is armed

Two functions look for the entry point of a target in the listing of its mappings: one when the
target has run its program, one when it is seized. The first takes the first mapping of the start
of the file for its load base, the second takes the last one and refuses a target without any.
-/

namespace Znn.Injector

open Interaction Trace Mode

/-- A load base and the entry point that goes with it. -/
structure Placement where
  base : Nat
  entry : Nat
  thumb : Bool
deriving DecidableEq, Repr

/-- The starts of the mappings of the start of the executable, in the order of the listing. -/
def fileStarts (exe : String) (entries : List MapEntry) : List Nat :=
  (entries.filter fun entry =>
    decide (entry.offset = 0) && Procfs.mapPathEqualsExe entry.path exe).map MapEntry.start

variable [Usize]

/-- The entry point for a load base, unless it is zero. -/
def placedAt (header : ElfHeader) (base : Nat) : Option Placement :=
  let (entry, thumb) := entryPoint (Elf.archOf header) header base
  if entry = 0 then none else some ⟨base, entry, thumb⟩

/-- What `arm_entry_breakpoint` makes of header and listing. -/
def armingPlacement (header : ElfHeader) (exe : String) (entries : List MapEntry) :
    Option Placement :=
  placedAt header ((entries.find? fun entry =>
    entry.offset == 0 && Procfs.mapPathEqualsExe entry.path exe).map MapEntry.start |>.getD 0)

/-- What `seize_and_stop` makes of them. -/
def seizingPlacement (header : ElfHeader) (exe : String) (entries : List MapEntry) :
    Option Placement :=
  if loadBase exe entries = 0 then none else placedAt header (loadBase exe entries)

section Programs

variable {pid : Pid}

theorem armEntryBreakpoint_placed (tracee : Tracee) :
    Daemon.armEntryBreakpoint pid tracee = (do
      let exe ← Procfs.readExePath pid
      if exe = "" then
        return none
      let daemon ← get
      if !Targets.matches daemon.targets exe then
        return none
      let some header ← perform (.elfHeader pid)
        | return none
      if Elf.archOf header = .unknown then
        return none
      let entries ← perform (.maps pid)
      match armingPlacement header exe entries with
      | none => return none
      | some placement =>
          setEntryBreakpoint pid
            { tracee with
              exe := exe
              arch := Elf.archOf header
              entry := placement.entry
              thumb := placement.thumb
              loader := Daemon.loaderPath daemon header.is64
              state := .entry
              deadlineMs := 0 } placement.thumb) := by
  unfold Daemon.armEntryBreakpoint
  apply bind_congr
  intro exe
  split
  · rfl
  apply bind_congr
  intro daemon
  split
  · rfl
  apply bind_congr
  intro header
  cases header with
  | none => rfl
  | some header =>
      dsimp only
      split
      · rfl
      apply bind_congr
      intro entries
      unfold armingPlacement placedAt
      dsimp only
      split <;> rfl

theorem seizePlan_placed (exe : String) :
    Daemon.seizePlan pid exe = (do
      let some header ← perform (.elfHeader pid)
        | return none
      if Elf.archOf header = .unknown then
        return none
      let entries ← perform (.maps pid)
      if hasLoader entries then
        return none
      return (seizingPlacement header exe entries).map fun placement =>
        (Elf.archOf header, header.is64, placement.entry, placement.thumb)) := by
  unfold Daemon.seizePlan
  apply bind_congr
  intro header
  cases header with
  | none => rfl
  | some header =>
      dsimp only
      split
      · rfl
      apply bind_congr
      intro entries
      unfold seizingPlacement placedAt
      dsimp only
      split
      · split <;> rfl
      · split
        · rfl
        · split <;> rfl

end Programs

section Starts

variable {exe : String} {header : ElfHeader} {entries : List MapEntry}

omit [Usize] in
/-- The scan that stops at the first mapping. -/
theorem find_fileStarts (exe : String) (entries : List MapEntry) :
    ((entries.find? fun entry =>
      entry.offset == 0 && Procfs.mapPathEqualsExe entry.path exe).map MapEntry.start |>.getD 0) =
      (fileStarts exe entries).head?.getD 0 := by
  induction entries with
  | nil => rfl
  | cons entry rest ih =>
      rw [List.find?_cons, fileStarts, List.filter_cons]
      by_cases isStart : entry.offset = 0 ∧ Procfs.mapPathEqualsExe entry.path exe = true
      · simp [isStart]
      · have skipped : (entry.offset == 0 && Procfs.mapPathEqualsExe entry.path exe) = false := by
          simpa using isStart
        have unkept : ¬(decide (entry.offset = 0) &&
            Procfs.mapPathEqualsExe entry.path exe) = true := by
          simpa using isStart
        rw [skipped, if_neg unkept]
        exact ih

omit [Usize] in
/-- The scan that goes on to the last one. -/
theorem loadBase_fileStarts (exe : String) (entries : List MapEntry) :
    loadBase exe entries = (fileStarts exe entries).getLast?.getD 0 := by
  suffices scan : ∀ base, entries.foldl (fun base entry =>
      if entry.offset = 0 ∧ Procfs.mapPathEqualsExe entry.path exe then entry.start else base) base =
        (fileStarts exe entries).getLast?.getD base from scan 0
  induction entries with
  | nil => exact fun base => rfl
  | cons entry rest ih =>
      intro base
      rw [List.foldl_cons, ih, fileStarts, fileStarts, List.filter_cons]
      by_cases isStart : entry.offset = 0 ∧ Procfs.mapPathEqualsExe entry.path exe = true
      · simp only [isStart, and_self, if_true, decide_true, Bool.and_self, List.map_cons,
          List.getLast?_cons, Option.getD_some]
      · have unkept : ¬(decide (entry.offset = 0) &&
            Procfs.mapPathEqualsExe entry.path exe) = true := by
          simpa using isStart
        rw [if_neg isStart, if_neg unkept]

/-- The entry point with a load base is usable. -/
def Usable (header : ElfHeader) (base : Nat) : Prop :=
  (entryPoint (Elf.archOf header) header base).1 ≠ 0

theorem placedAt_eq_none_iff (base : Nat) :
    placedAt header base = none ↔ ¬Usable header base := by
  unfold placedAt Usable
  dsimp only
  split
  case isTrue zero => simp [zero]
  case isFalse usable => simp [usable]

theorem placedAt_base {base : Nat} {placement : Placement}
    (placed : placedAt header base = some placement) : placement.base = base := by
  unfold placedAt at placed
  dsimp only at placed
  split at placed
  · cases placed
  · cases placed
    rfl

/-- The two paths agree exactly if the first and the last mapping of the start of the file are at
the same place, which is not zero, or neither path has a usable entry point. -/
theorem placements_agree_iff (header : ElfHeader) (exe : String) (entries : List MapEntry) :
    armingPlacement header exe entries = seizingPlacement header exe entries ↔
      (((fileStarts exe entries).head?.getD 0 = (fileStarts exe entries).getLast?.getD 0 ∧
          (fileStarts exe entries).getLast?.getD 0 ≠ 0) ∨
        (¬Usable header ((fileStarts exe entries).head?.getD 0) ∧
          ((fileStarts exe entries).getLast?.getD 0 = 0 ∨
            ¬Usable header ((fileStarts exe entries).getLast?.getD 0)))) := by
  rw [armingPlacement, seizingPlacement, find_fileStarts, loadBase_fileStarts]
  generalize (fileStarts exe entries).head?.getD 0 = first
  generalize (fileStarts exe entries).getLast?.getD 0 = last
  constructor
  · intro agree
    by_cases based : last = 0
    · rw [if_pos based] at agree
      exact .inr ⟨(placedAt_eq_none_iff first).mp agree, .inl based⟩
    · rw [if_neg based] at agree
      cases placed : placedAt header first with
      | none =>
          rw [placed] at agree
          exact .inr ⟨(placedAt_eq_none_iff first).mp placed,
            .inr ((placedAt_eq_none_iff last).mp agree.symm)⟩
      | some placement =>
          have same := placedAt_base (agree.symm.trans placed)
          exact .inl ⟨(placedAt_base placed).symm.trans same, based⟩
  · rintro (⟨same, based⟩ | ⟨unusable, refused⟩)
    · rw [if_neg based, same]
    · rw [(placedAt_eq_none_iff first).mpr unusable]
      rcases refused with unbased | unusableLast
      · rw [if_pos unbased]
      · rw [(placedAt_eq_none_iff last).mpr unusableLast]
        split <;> rfl

end Starts

/-- The two paths agree on every listing. -/
def PlacementsAgree : Prop :=
  ∀ header exe entries, armingPlacement header exe entries = seizingPlacement header exe entries

omit [Usize] in
/-- A program whose first page is mapped twice. -/
theorem placements_of_double_mapping : ¬@PlacementsAgree .eight := by
  intro agree
  have same := agree ⟨true, Elf.ET_DYN, Elf.EM_AARCH64, 16⟩ "/a"
    [⟨4096, 8192, 0, 4, "/a"⟩, ⟨16384, 20480, 0, 5, "/a"⟩]
  exact absurd same (by decide)

end Znn.Injector
