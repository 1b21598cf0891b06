import Mathlib.Logic.Function.Basic
import Znn.Interaction.Reach

/-!
# Replacing a file

`replace_file` writes a temporary file beside its target and renames it over the target. Several
calls may be under way on one target, and all of them use the one temporary name. Here every
operation on the file system is one step, which may fail, and the calls take their steps in any
order; a crash ends all of them.
-/

namespace Znn.Injector

open Interaction

namespace Fileio

/-- The number of a file, which it keeps under whatever name. -/
abbrev File : Type := Nat

structure Inode where
  contents : List UInt8 := []
  synced : Bool := false

/-- The files, and which of them the temporary name and the target name. -/
structure Disk where
  files : File → Inode
  next : File
  temporary : Option File
  target : Option File

namespace Disk

def contentsOf (disk : Disk) (entry : Option File) : Option (List UInt8) :=
  entry.map fun file => (disk.files file).contents

def removeTemporary (disk : Disk) : Disk :=
  { disk with temporary := none }

def createTemporary (disk : Disk) : Disk :=
  { disk with
    files := Function.update disk.files disk.next {}
    next := disk.next + 1
    temporary := some disk.next }

def append (disk : Disk) (file : File) (bytes : List UInt8) : Disk :=
  { disk with
    files := Function.update disk.files file
      { contents := (disk.files file).contents ++ bytes, synced := false } }

def sync (disk : Disk) (file : File) : Disk :=
  { disk with
    files := Function.update disk.files file { disk.files file with synced := true } }

end Disk

/-- Where a call of `replace_file` is: the operation that it does next. Once it has returned, what
its rename made the target hold, if it got that far. -/
inductive Point where
  | remove
  | create
  | write (file : File) (written : Nat)
  | rename (file : File)
  | cleanup
  | returned (installed : Option (List UInt8))

/-- The file that a call has open. -/
def Point.held : Point → Option File
  | write file _ => some file
  | rename file => some file
  | _ => none

structure Call where
  contents : List UInt8
  point : Point

/-- How an operation ends; a write says how much it has written. -/
inductive Outcome where
  | succeed (count : Nat)
  | fail

/-- One operation of a call. -/
def advance (disk : Disk) (call : Call) : Outcome → Option (Disk × Point)
  | .succeed count =>
      match call.point with
      | .remove => some (disk.removeTemporary, .create)
      | .create =>
          -- `create_new`: the name must be free.
          if disk.temporary = none then
            some (disk.createTemporary, .write disk.next 0)
          else
            none
      | .write file written =>
          -- `write_all`, then `sync_all`.
          if written < call.contents.length then
            if 0 < count ∧ written + count ≤ call.contents.length then
              some (disk.append file ((call.contents.drop written).take count),
                .write file (written + count))
            else
              none
          else
            some (disk.sync file, .rename file)
      | .rename _ =>
          match disk.temporary with
          | none => none
          | some found =>
              some ({ disk with temporary := none, target := some found },
                .returned (some (disk.files found).contents))
      | .cleanup => some (disk.removeTemporary, .returned none)
      | .returned _ => none
  | .fail =>
      match call.point with
      | .remove => some (disk, .returned none)
      | .create => some (disk, .cleanup)
      | .write _ _ => some (disk, .cleanup)
      | .rename _ => some (disk, .cleanup)
      | .cleanup => some (disk, .returned none)
      | .returned _ => none

/-- The disk and the calls. For statements it is remembered what the target held at first, what
the calls were passed and what the target has named. -/
structure Replacing where
  disk : Disk
  calls : Nat → Option Call
  original : Option (List UInt8)
  passed : List (List UInt8)
  targets : List (Option File)

inductive Event where
  | start (id : Nat) (contents : List UInt8)
  | operate (id : Nat) (outcome : Outcome)
  | crash (survived : File → List UInt8) (temporary target : Option File)

/-- What a crash leaves of a file: all of it if it was synced, else anything. -/
def Inode.afterCrash (inode : Inode) (survived : List UInt8) : Inode :=
  if inode.synced then inode else { contents := survived, synced := true }

def step (s : Replacing) : Event → Option Replacing
  | .start id contents =>
      if (s.calls id).isNone then
        some { s with
          calls := Function.update s.calls id (some ⟨contents, .remove⟩)
          passed := contents :: s.passed }
      else
        none
  | .operate id outcome => do
      let call ← s.calls id
      let (disk, point) ← advance s.disk call outcome
      return { s with
        disk := disk
        calls := Function.update s.calls id (some { call with point := point })
        targets := disk.target :: s.targets }
  | .crash survived temporary target =>
      -- A rename that has not reached the disk is undone.
      if target ∈ s.targets then
        some { s with
          disk := { s.disk with
            files := fun file => (s.disk.files file).afterCrash (survived file)
            temporary := temporary
            target := target }
          calls := fun _ => none
          targets := target :: s.targets }
      else
        none

/-- No call is under way yet; whatever the target holds is on the disk. -/
structure AtRest (s : Replacing) : Prop where
  idle : ∀ id, s.calls id = none
  original : s.original = s.disk.contentsOf s.disk.target
  targets : s.targets = [s.disk.target]
  known : ∀ file, s.disk.target = some file → file < s.disk.next
  durable : ∀ file, s.disk.target = some file → (s.disk.files file).synced = true

def system : System Replacing Event where
  Initial := AtRest
  Step s event s' := step s event = some s'

/-- The target holds what it held before or the complete contents of one call. -/
def Replacing.Intact (s : Replacing) : Prop :=
  s.disk.contentsOf s.disk.target = s.original ∨
    ∃ contents ∈ s.passed, s.disk.contentsOf s.disk.target = some contents

/-- A call that has returned `Ok` has made the target hold its own contents. -/
def Replacing.Installed (s : Replacing) : Prop :=
  ∀ id call bytes, s.calls id = some call → call.point = .returned (some bytes) →
    bytes = call.contents

/-- A rename finds the temporary name gone or naming the file that its call has written. -/
def Point.Undisturbed (disk : Disk) : Point → Prop
  | rename file => disk.temporary = none ∨ disk.temporary = some file
  | _ => True

def Undisturbed (s : Replacing) : Event → Prop
  | .operate id _ => ∀ call ∈ s.calls id, call.point.Undisturbed s.disk
  | _ => True

instance (disk : Disk) : DecidablePred (Point.Undisturbed disk)
  | .rename file =>
      inferInstanceAs (Decidable (disk.temporary = none ∨ disk.temporary = some file))
  | .remove | .create | .write _ _ | .cleanup | .returned _ => .isTrue trivial

instance (s : Replacing) : DecidablePred (Undisturbed s)
  | .operate id _ =>
      inferInstanceAs (Decidable (∀ call ∈ s.calls id, call.point.Undisturbed s.disk))
  | .start _ _ | .crash _ _ _ => .isTrue trivial

section Steps

variable {disk after : Disk} {call : Call} {outcome : Outcome} {point point' : Point}
  {contents : List UInt8} {file : File} {s s' : Replacing}

/-- What an operation can do, success and failure apart. -/
inductive Advanced (disk : Disk) (contents : List UInt8) : Point → Disk → Point → Prop where
  | removed : Advanced disk contents .remove disk.removeTemporary .create
  | stuck : Advanced disk contents .remove disk (.returned none)
  | created (free : disk.temporary = none) :
      Advanced disk contents .create disk.createTemporary (.write disk.next 0)
  | taken : Advanced disk contents .create disk .cleanup
  | stopped {point : Point} {file : File} (holds : point.held = some file) :
      Advanced disk contents point disk .cleanup
  | wrote {file : File} {written count : Nat} (fits : written + count ≤ contents.length) :
      Advanced disk contents (.write file written)
        (disk.append file ((contents.drop written).take count)) (.write file (written + count))
  | synced {file : File} {written : Nat} (complete : contents.length ≤ written) :
      Advanced disk contents (.write file written) (disk.sync file) (.rename file)
  | renamed {file found : File} (named : disk.temporary = some found) :
      Advanced disk contents (.rename file) { disk with temporary := none, target := some found }
        (.returned (some (disk.files found).contents))
  | cleaned : Advanced disk contents .cleanup disk.removeTemporary (.returned none)
  | left : Advanced disk contents .cleanup disk (.returned none)

theorem advanced_of_advance (advanced : advance disk call outcome = some (after, point')) :
    Advanced disk call.contents call.point after point' := by
  rcases call with ⟨contents, point⟩
  cases outcome with
  | fail =>
      cases point with
      | remove =>
          cases advanced
          exact .stuck
      | create =>
          cases advanced
          exact .taken
      | write file written =>
          cases advanced
          exact .stopped rfl
      | rename file =>
          cases advanced
          exact .stopped rfl
      | cleanup =>
          cases advanced
          exact .left
      | returned installed => cases advanced
  | succeed count =>
      cases point with
      | remove =>
          cases advanced
          exact .removed
      | create =>
          by_cases free : disk.temporary = none
          · rw [advance, if_pos free] at advanced
            cases advanced
            exact .created free
          · rw [advance, if_neg free] at advanced
            cases advanced
      | write file written =>
          simp only [advance] at advanced
          split at advanced
          · split at advanced
            · rename_i fits
              cases advanced
              exact .wrote fits.2
            · cases advanced
          · rename_i complete
            cases advanced
            exact .synced (Nat.le_of_not_lt complete)
      | rename file =>
          simp only [advance] at advanced
          split at advanced
          · cases advanced
          · rename_i found named
            cases advanced
            exact .renamed named
      | cleanup =>
          cases advanced
          exact .cleaned
      | returned installed => cases advanced

/-- How far a call has come, read from the disk. -/
def Progress (disk : Disk) (contents : List UInt8) : Point → Prop
  | .write file written =>
      written ≤ contents.length ∧ (disk.files file).contents = contents.take written
  | .rename file => disk.files file = { contents := contents, synced := true }
  | .returned (some bytes) => bytes = contents
  | _ => True

namespace Advanced

theorem next_le (advanced : Advanced disk contents point after point') :
    disk.next ≤ after.next := by
  cases advanced <;> simp [Disk.removeTemporary, Disk.createTemporary, Disk.append, Disk.sync]

/-- A call touches no file but its own, or a new one. -/
theorem files (advanced : Advanced disk contents point after point')
    (other : point.held ≠ some file) (old : file < disk.next) :
    after.files file = disk.files file := by
  cases advanced with
  | created => exact Function.update_of_ne (Nat.ne_of_lt old) _ _
  | @wrote mine =>
      have different : file ≠ mine := by
        rintro rfl
        exact other rfl
      exact Function.update_of_ne different _ _
  | @synced mine =>
      have different : file ≠ mine := by
        rintro rfl
        exact other rfl
      exact Function.update_of_ne different _ _
  | _ => rfl

theorem held (advanced : Advanced disk contents point after point')
    (holds : point'.held = some file) :
    point.held = some file ∨ file = disk.next ∧ after.next = disk.next + 1 := by
  cases advanced with
  | created =>
      cases holds
      exact .inr ⟨rfl, rfl⟩
  | wrote => exact .inl holds
  | synced => exact .inl holds
  | _ => cases holds

theorem progress (advanced : Advanced disk contents point after point')
    (before : Progress disk contents point)
    (undisturbed : point.Undisturbed disk) : Progress after contents point' := by
  cases advanced with
  | created =>
      refine ⟨Nat.zero_le _, ?_⟩
      simp [Disk.createTemporary]
  | wrote fits =>
      refine ⟨fits, ?_⟩
      simp [Disk.append, before.2, List.take_add]
  | synced complete =>
      have whole := before.2
      rw [List.take_of_length_le complete] at whole
      simp [Progress, Disk.sync, whole]
  | @renamed mine found named =>
      rcases undisturbed with gone | own
      · rw [gone] at named
        cases named
      · rw [own] at named
        cases named
        have written : disk.files mine = _ := before
        exact congrArg Inode.contents written
  | _ => trivial

/-- The target changes in a rename only, and no file does there. -/
theorem target (advanced : Advanced disk contents point after point') :
    after.target = disk.target ∨ ∃ mine found, point = .rename mine ∧
      disk.temporary = some found ∧ after.target = some found ∧ after.files = disk.files := by
  cases advanced with
  | @renamed mine found named => exact .inr ⟨mine, found, rfl, named, rfl, rfl⟩
  | _ => exact .inl rfl

end Advanced

/-- What the target could hold. -/
def Replacing.Holds (s : Replacing) (found : Option (List UInt8)) : Prop :=
  found = s.original ∨ ∃ contents ∈ s.passed, found = some contents

/-- The target names whole files that are on the disk, and no call has one of them open. -/
structure Sound (s : Replacing) : Prop where
  fresh : ∀ id call file, s.calls id = some call → call.point.held = some file →
    file < s.disk.next
  apart : ∀ id id' call call' file, s.calls id = some call → s.calls id' = some call' →
    call.point.held = some file → call'.point.held = some file → id = id'
  closed : ∀ id call file, s.calls id = some call → call.point.held = some file →
    some file ∉ s.targets
  progress : ∀ id call, s.calls id = some call → Progress s.disk call.contents call.point
  passes : ∀ id call, s.calls id = some call → call.contents ∈ s.passed
  known : ∀ file, some file ∈ s.targets → file < s.disk.next
  durable : ∀ file, some file ∈ s.targets → (s.disk.files file).synced = true
  whole : ∀ entry ∈ s.targets, s.Holds (s.disk.contentsOf entry)
  current : s.disk.target ∈ s.targets

theorem sound_of_atRest (rest : AtRest s) : Sound s where
  fresh id call file called _ := by
    rw [rest.idle] at called
    cases called
  apart id _ call _ file called := by
    rw [rest.idle] at called
    cases called
  closed id call file called _ := by
    rw [rest.idle] at called
    cases called
  progress id call called := by
    rw [rest.idle] at called
    cases called
  passes id call called := by
    rw [rest.idle] at called
    cases called
  known file member := by
    rw [rest.targets, List.mem_singleton] at member
    exact rest.known file member.symm
  durable file member := by
    rw [rest.targets, List.mem_singleton] at member
    exact rest.durable file member.symm
  whole entry member := by
    rw [rest.targets, List.mem_singleton] at member
    rw [member, ← rest.original]
    exact .inl rfl
  current := by simp [rest.targets]

theorem sound_start {id : Nat} (sound : Sound s) (stepped : step s (.start id contents) = some s') :
    Sound s' := by
  rw [step] at stepped
  split at stepped
  case isFalse => cases stepped
  case isTrue absent =>
  cases stepped
  have old : ∀ {other call file}, Function.update s.calls id (some ⟨contents, .remove⟩) other =
      some call → call.point.held = some file → s.calls other = some call := by
    intro other call file called holds
    by_cases same : other = id
    · rw [same, Function.update_self] at called
      cases called
      cases holds
    · rwa [Function.update_of_ne same] at called
  exact {
    fresh := fun other call file called holds => sound.fresh other call file (old called holds) holds
    apart := fun other other' call call' file called called' holds holds' =>
      sound.apart other other' call call' file (old called holds) (old called' holds') holds holds'
    closed := fun other call file called holds =>
      sound.closed other call file (old called holds) holds
    progress := by
      intro other call called
      dsimp only at called
      by_cases same : other = id
      · rw [same, Function.update_self] at called
        cases called
        trivial
      · rw [Function.update_of_ne same] at called
        exact sound.progress other call called
    passes := by
      intro other call called
      dsimp only at called
      by_cases same : other = id
      · rw [same, Function.update_self] at called
        cases called
        exact List.mem_cons_self
      · rw [Function.update_of_ne same] at called
        exact List.mem_cons_of_mem _ (sound.passes other call called)
    known := sound.known
    durable := sound.durable
    whole := by
      intro entry member
      rcases sound.whole entry member with first | ⟨bytes, passed, same⟩
      · exact .inl first
      · exact .inr ⟨bytes, List.mem_cons_of_mem _ passed, same⟩
    current := sound.current }

theorem sound_crash {survived : File → List UInt8} {temporary entry : Option File}
    (sound : Sound s) (stepped : step s (.crash survived temporary entry) = some s') :
    Sound s' := by
  rw [step] at stepped
  split at stepped
  case isFalse => cases stepped
  case isTrue earlier =>
  cases stepped
  have remembered : ∀ {other}, other ∈ entry :: s.targets → other ∈ s.targets := by
    intro other member
    rcases List.mem_cons.mp member with rfl | old
    · exact earlier
    · exact old
  have kept : ∀ {file}, some file ∈ s.targets →
      (s.disk.files file).afterCrash (survived file) = s.disk.files file := by
    intro file member
    rw [Inode.afterCrash, if_pos (sound.durable file member)]
  exact {
    fresh := fun _ _ _ called _ => by cases called
    apart := fun _ _ _ _ _ called => by cases called
    closed := fun _ _ _ called _ => by cases called
    progress := fun _ _ called => by cases called
    passes := fun _ _ called => by cases called
    known := fun file member => sound.known file (remembered member)
    durable := by
      intro file member
      dsimp only
      rw [kept (remembered member)]
      exact sound.durable file (remembered member)
    whole := by
      intro other member
      have before := sound.whole other (remembered member)
      cases other with
      | none => exact before
      | some file =>
          simp only [Disk.contentsOf, Option.map_some, Replacing.Holds,
            kept (remembered member)] at before ⊢
          exact before
    current := List.mem_cons_self }

theorem operate_cases {id : Nat} (stepped : step s (.operate id outcome) = some s') :
    ∃ call disk point, s.calls id = some call ∧
      Advanced s.disk call.contents call.point disk point ∧
      s' = { s with
        disk := disk
        calls := Function.update s.calls id (some { call with point := point })
        targets := disk.target :: s.targets } := by
  rw [step] at stepped
  cases called : s.calls id with
  | none => simp [called] at stepped
  | some call =>
      simp only [called, Option.bind_eq_bind, Option.bind_some] at stepped
      cases advanced : advance s.disk call outcome with
      | none => simp [advanced] at stepped
      | some result =>
          rcases result with ⟨disk, point⟩
          simp only [advanced, Option.bind_some] at stepped
          cases stepped
          exact ⟨call, disk, point, rfl, advanced_of_advance advanced, rfl⟩

/-- The progress of a call is about its own file only. -/
theorem Progress.congr (progress : Progress disk contents point)
    (same : ∀ file, point.held = some file → after.files file = disk.files file) :
    Progress after contents point := by
  cases point with
  | write file written =>
      rw [Progress, same file rfl]
      exact progress
  | rename file =>
      rw [Progress, same file rfl]
      exact progress
  | returned installed => cases installed <;> exact progress
  | _ => trivial

theorem sound_operate {id : Nat} (sound : Sound s) (undisturbed : Undisturbed s (.operate id outcome))
    (stepped : step s (.operate id outcome) = some s') : Sound s' := by
  rcases operate_cases stepped with ⟨call, disk, point, called, advanced, rfl⟩
  -- Another call is as it was, and its file is not the acting call's.
  have others : ∀ {other call'}, other ≠ id →
      Function.update s.calls id (some { call with point := point }) other = some call' →
        s.calls other = some call' := by
    intro other call' ne called'
    rwa [Function.update_of_ne ne] at called'
  have unheld : ∀ {other call' file}, other ≠ id → s.calls other = some call' →
      call'.point.held = some file → call.point.held ≠ some file := by
    intro other call' file ne called' holds' holds
    exact ne (sound.apart other id call' call file called' called holds' holds)
  have mine : ∀ {call'}, Function.update s.calls id (some { call with point := point }) id =
      some call' → call' = { call with point := point } := by
    intro call' called'
    rw [Function.update_self] at called'
    exact (Option.some.inj called').symm
  -- What the target names was named before, or it is the acting call's finished file.
  have named : ∀ {entry}, entry ∈ disk.target :: s.targets → entry ∈ s.targets ∨
      ∃ file, entry = some file ∧ call.point = .rename file ∧ disk.files = s.disk.files ∧
        point.held = none := by
    intro entry member
    rcases List.mem_cons.mp member with rfl | old
    · have clear := undisturbed call called
      rcases advanced.target with same | ⟨own, found, atRename, temporary, target, files⟩
      · exact .inl (by rw [same]; exact sound.current)
      · rw [atRename] at clear
        rcases clear with gone | stands
        · rw [gone] at temporary
          cases temporary
        · rw [stands] at temporary
          cases temporary
          rw [atRename] at advanced
          refine .inr ⟨own, target, atRename, files, ?_⟩
          cases advanced <;> rfl
    · exact .inl old
  have kept : ∀ {file}, some file ∈ s.targets → disk.files file = s.disk.files file := by
    intro file member
    exact advanced.files (fun holds => sound.closed id call file called holds member)
      (sound.known file member)
  exact {
    fresh := by
      intro other call' file called' holds
      by_cases same : other = id
      · subst same
        cases mine called'
        rcases advanced.held holds with old | ⟨rfl, next⟩
        · exact Nat.lt_of_lt_of_le (sound.fresh _ call file called old) advanced.next_le
        · exact next ▸ Nat.lt_succ_self _
      · exact Nat.lt_of_lt_of_le (sound.fresh other call' file (others same called') holds)
          advanced.next_le
    apart := by
      intro first second call₁ call₂ file called₁ called₂ holds₁ holds₂
      by_cases isFirst : first = id <;> by_cases isSecond : second = id
      · rw [isFirst, isSecond]
      · subst isFirst
        cases mine called₁
        have other := others isSecond called₂
        rcases advanced.held holds₁ with old | ⟨rfl, _⟩
        · exact absurd old (unheld isSecond other holds₂)
        · exact absurd (sound.fresh second call₂ _ other holds₂) (Nat.lt_irrefl _)
      · subst isSecond
        cases mine called₂
        have other := others isFirst called₁
        rcases advanced.held holds₂ with old | ⟨rfl, _⟩
        · exact absurd old (unheld isFirst other holds₁)
        · exact absurd (sound.fresh first call₁ _ other holds₁) (Nat.lt_irrefl _)
      · exact sound.apart first second call₁ call₂ file (others isFirst called₁)
          (others isSecond called₂) holds₁ holds₂
    closed := by
      intro other call' file called' holds member
      by_cases same : other = id
      · subst same
        cases mine called'
        rcases named member with old | ⟨_, _, _, _, released⟩
        · rcases advanced.held holds with before | ⟨rfl, _⟩
          · exact sound.closed _ call file called before old
          · exact Nat.lt_irrefl _ (sound.known _ old)
        · rw [released] at holds
          cases holds
      · have before := others same called'
        rcases named member with old | ⟨_, ⟨⟩, atRename, _, _⟩
        · exact sound.closed other call' file before holds old
        · exact unheld same before holds (by rw [atRename]; rfl)
    progress := by
      intro other call' called'
      by_cases same : other = id
      · subst same
        cases mine called'
        exact advanced.progress (sound.progress _ call called) (undisturbed call called)
      · have before := others same called'
        apply (sound.progress other call' before).congr
        intro file holds
        exact advanced.files (unheld same before holds) (sound.fresh other call' file before holds)
    passes := by
      intro other call' called'
      by_cases same : other = id
      · subst same
        cases mine called'
        exact sound.passes _ call called
      · exact sound.passes other call' (others same called')
    known := by
      intro file member
      rcases named member with old | ⟨_, ⟨⟩, atRename, _, _⟩
      · exact Nat.lt_of_lt_of_le (sound.known file old) advanced.next_le
      · exact Nat.lt_of_lt_of_le (sound.fresh id call file called (by rw [atRename]; rfl))
          advanced.next_le
    durable := by
      intro file member
      rcases named member with old | ⟨_, ⟨⟩, atRename, files, _⟩
      · rw [kept old]
        exact sound.durable file old
      · have written := sound.progress id call called
        rw [atRename] at written
        rw [files, show s.disk.files file = _ from written]
    whole := by
      intro entry member
      rcases named member with old | ⟨file, rfl, atRename, files, _⟩
      · have before := sound.whole entry old
        cases entry with
        | none => exact before
        | some file =>
            simp only [Disk.contentsOf, Option.map_some, Replacing.Holds, kept old] at before ⊢
            exact before
      · have written := sound.progress id call called
        rw [atRename] at written
        refine .inr ⟨call.contents, sound.passes id call called, ?_⟩
        rw [Disk.contentsOf, Option.map_some, files, show s.disk.files file = _ from written]
    current := List.mem_cons_self }

theorem sound_step {event : Event} (sound : Sound s) (undisturbed : Undisturbed s event)
    (stepped : step s event = some s') : Sound s' := by
  cases event with
  | start id contents => exact sound_start sound stepped
  | operate id outcome => exact sound_operate sound undisturbed stepped
  | crash survived temporary target => exact sound_crash sound stepped

/-- As long as no rename acts on a file that its own call has not written, the target is never
seen in part, whatever fails and whenever the system crashes, and `Ok` means installed. -/
theorem undisturbed_calls_replace (reached : (system.restrict Undisturbed).Reachable s) :
    s.Intact ∧ s.Installed := by
  have sound : Sound s :=
    reached.induct (fun _ rest => sound_of_atRest rest)
      fun _ _ _ sound undisturbed stepped => sound_step sound undisturbed stepped
  constructor
  · exact sound.whole _ sound.current
  · intro id call bytes called returned
    have progress := sound.progress id call called
    rw [returned] at progress
    exact progress

end Steps

/-- An empty disk, and no call. -/
def blank : Replacing where
  disk := { files := fun _ => {}, next := 0, temporary := none, target := none }
  calls := fun _ => none
  original := none
  passed := []
  targets := [none]

theorem blank_atRest : AtRest blank where
  idle _ := rfl
  original := rfl
  targets := rfl
  known _ named := by cases named
  durable _ named := by cases named

def undisturbedStep (s : Replacing) (event : Event) : Option Replacing :=
  if Undisturbed s event then step s event else none

/-- Two calls that have both begun when the first one creates its file. -/
def overlapping : List Event :=
  [.start 0 [1, 2], .start 1 [3, 4], .operate 0 (.succeed 0), .operate 1 (.succeed 0),
    .operate 0 (.succeed 0), .operate 0 (.succeed 1), .operate 0 (.succeed 1),
    .operate 0 (.succeed 0), .operate 0 (.succeed 0), .operate 1 (.succeed 0),
    .operate 1 (.succeed 2), .operate 1 (.succeed 0), .operate 1 (.succeed 0)]

def targetContents (s : Replacing) : Option (List UInt8) :=
  s.disk.contentsOf s.disk.target

/-- Both calls return `Ok`, and the target holds what the second one was passed. -/
theorem undisturbed_calls_overlap : ∃ s, (system.restrict Undisturbed).Reachable s ∧
    targetContents s = some [3, 4] ∧ s.passed = [[3, 4], [1, 2]] ∧ s.Intact ∧ s.Installed := by
  have installs : (overlapping.foldlM undisturbedStep blank).map
      (fun s => (targetContents s, s.passed)) = some (some [3, 4], [[3, 4], [1, 2]]) := by
    decide
  rw [Option.map_eq_some_iff] at installs
  rcases installs with ⟨s, ran, installed⟩
  rw [Prod.mk.injEq] at installed
  have reached : (system.restrict Undisturbed).Reachable s := by
    apply (System.Reachable.initial blank_atRest).run _ overlapping ran
    intro s event s' stepped
    rw [undisturbedStep, Option.ite_none_right_eq_some] at stepped
    exact stepped
  exact ⟨s, reached, installed.1, installed.2, undisturbed_calls_replace reached⟩

/-- Any calls replace the target as one would. -/
def CallsReplace : Prop :=
  ∀ s, system.Reachable s → s.Intact ∧ s.Installed

/-- The second call removes the first one's temporary file and has written half of its own when
the first renames it over the target. -/
def renamedForeign : List Event :=
  [.start 0 [1, 2], .start 1 [3, 4], .operate 0 (.succeed 0), .operate 0 (.succeed 0),
    .operate 0 (.succeed 2), .operate 0 (.succeed 0), .operate 1 (.succeed 0),
    .operate 1 (.succeed 0), .operate 1 (.succeed 1), .operate 0 (.succeed 0)]

theorem foreign_file_installed : ¬CallsReplace := by
  intro replace
  have installs : (renamedForeign.foldlM step blank).map
      (fun s => (targetContents s, s.original, s.passed)) =
        some (some [3], none, [[3, 4], [1, 2]]) := by
    decide
  rw [Option.map_eq_some_iff] at installs
  rcases installs with ⟨s, ran, installed⟩
  have reached : system.Reachable s :=
    (System.Reachable.initial blank_atRest).run (fun _ _ _ stepped => stepped) renamedForeign ran
  simp only [Prod.mk.injEq] at installed
  rcases installed with ⟨target, original, passed⟩
  rcases (replace s reached).1 with first | ⟨contents, member, same⟩
  · rw [targetContents, first, original] at target
    cases target
  · rw [targetContents, same] at target
    rw [passed] at member
    cases target
    exact absurd member (by decide)

end Fileio

end Znn.Injector
