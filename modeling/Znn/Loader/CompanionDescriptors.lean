import Mathlib.Data.List.Nodup
import Znn.Interaction.Reach
import Znn.Loader.Companion

/-!
# Who closes a companion's descriptors

Every descriptor that `connectCompanion` opens is closed by it, stored in the handle or returned.
The books are kept by number. They balance as long as the numbers that the handle keeps still refer
to what was stored: the checks of a stored number look at the socket behind it, and close whatever
it is that does not pass.
-/

namespace Znn.Loader.Companion

open Interaction

/-- A number, unless it is -1. -/
def numbers (fd : Fd) : List Fd :=
  if 0 ≤ fd then [fd] else []

theorem numbers_of_nonneg {fd : Fd} (stored : 0 ≤ fd) : numbers fd = [fd] :=
  if_pos stored

theorem numbers_of_neg {fd : Fd} (absent : ¬0 ≤ fd) : numbers fd = [] :=
  if_neg absent

/-- The numbers that a handle keeps. -/
def ModuleHandle.storedFds (handle : ModuleHandle) : List Fd :=
  numbers handle.companionChannel ++ numbers handle.companionListenFd

@[simp]
theorem numbers_neg_one : numbers (-1) = [] :=
  numbers_of_neg (by decide)

namespace ModuleHandle

variable (handle : ModuleHandle)

@[simp]
theorem storedFds_withoutChannel :
    handle.withoutChannel.storedFds = numbers handle.companionListenFd := by
  simp [storedFds, withoutChannel]

@[simp]
theorem storedFds_withoutListener :
    handle.withoutListener.storedFds = numbers handle.companionChannel := by
  simp [storedFds, withoutListener]

@[simp]
theorem storedFds_accepted (channel : Fd) : (handle.accepted channel).storedFds = numbers channel := by
  simp [storedFds, accepted]

theorem nodup_storedFds : handle.storedFds.Nodup := by
  unfold storedFds numbers
  split
  case isTrue stored =>
    split
    case isTrue =>
      have apart := handle.apart stored
      simpa using apart
    case isFalse => simp
  case isFalse =>
    split
    · simp
    · simp

end ModuleHandle

/-- The descriptors that were opened are those that were closed, those that the numbers refer to,
and those that are gone to somebody else. -/
structure Books (fds : List Fd) (gone : List (Option Descriptor)) (world : Kernel × Log) :
    Prop where
  distinct : fds.Nodup
  opened : world.2.opened.Nodup
  bounded : ∀ descriptor ∈ world.2.opened, descriptor < world.1.next
  accounted : (world.2.opened.map some).Perm
    (world.2.closed ++ (fds.map world.1.table ++ gone))

namespace Books

variable {fds fds' : List Fd} {gone : List (Option Descriptor)} {world : Kernel × Log}
  {kernel kernel' : Kernel} {log log' : Log} {fd : Fd}

/-- The numbers refer to something. -/
theorem refers (books : Books fds gone world) (member : fd ∈ fds) : world.1.table fd ≠ none := by
  intro free
  have present : none ∈ world.2.opened.map some := by
    rw [books.accounted.mem_iff, ← free]
    exact List.mem_append_right _ (List.mem_append_left _ (List.mem_map_of_mem member))
  rcases List.mem_map.mp present with ⟨_, _, ⟨⟩⟩

theorem perm (books : Books fds gone world) (same : fds.Perm fds') : Books fds' gone world where
  distinct := same.nodup_iff.mp books.distinct
  opened := books.opened
  bounded := books.bounded
  accounted := by
    refine books.accounted.trans (List.Perm.append_left _ ?_)
    exact (same.map _).append_right _

/-- Nothing is opened or closed. -/
theorem same (books : Books fds gone (kernel, log)) (table : kernel'.table = kernel.table)
    (next : kernel'.next = kernel.next) (opened : log'.opened = log.opened)
    (closed : log'.closed = log.closed) : Books fds gone (kernel', log') where
  distinct := books.distinct
  opened := opened ▸ books.opened
  bounded := by
    change ∀ descriptor ∈ log'.opened, descriptor < kernel'.next
    rw [opened, next]
    exact books.bounded
  accounted := by
    change (log'.opened.map some).Perm (log'.closed ++ (fds.map kernel'.table ++ gone))
    rw [opened, closed, table]
    exact books.accounted

/-- What another number refers to does not change. -/
theorem map_update (absent : fd ∉ fds) (value : Option Descriptor) :
    fds.map (Function.update kernel.table fd value) = fds.map kernel.table := by
  apply List.map_congr_left
  intro other member
  exact Function.update_of_ne (ne_of_mem_of_not_mem member absent) _ _

/-- A descriptor is opened under a number that was free. -/
theorem install (books : Books fds gone (kernel, log)) (free : kernel.table fd = none)
    (socket : Option Socket) (opened : log'.opened = log.opened ++ [kernel.next])
    (closed : log'.closed = log.closed) :
    Books (fd :: fds) gone (kernel.install fd socket, log') := by
  have absent : fd ∉ fds := fun member => books.refers member free
  refine ⟨List.nodup_cons.mpr ⟨absent, books.distinct⟩, ?_, ?_, ?_⟩
  · change log'.opened.Nodup
    rw [opened, (List.perm_append_singleton _ _).nodup_iff]
    refine List.nodup_cons.mpr ⟨fun member => ?_, books.opened⟩
    exact Nat.lt_irrefl _ (books.bounded _ member)
  · change ∀ descriptor ∈ log'.opened, descriptor < kernel.next + 1
    intro descriptor member
    rw [opened, List.mem_append, List.mem_singleton] at member
    rcases member with older | rfl
    · exact Nat.lt_succ_of_lt (books.bounded descriptor older)
    · exact Nat.lt_succ_self _
  · change (log'.opened.map some).Perm
      (log'.closed ++ ((fd :: fds).map (Function.update kernel.table fd _) ++ gone))
    rw [opened, closed, List.map_append, List.map_singleton, List.map_cons, map_update absent,
      Function.update_self]
    refine (List.perm_append_singleton _ _).trans ?_
    exact (books.accounted.cons _).trans List.perm_middle.symm

/-- A number that refers to something is closed. -/
theorem release (books : Books (fd :: fds) gone (kernel, log)) (opened : log'.opened = log.opened)
    (closed : log'.closed = log.closed ++ [kernel.table fd]) :
    Books fds gone (kernel.release fd, log') := by
  rcases List.nodup_cons.mp books.distinct with ⟨absent, distinct⟩
  refine ⟨distinct, opened ▸ books.opened, ?_, ?_⟩
  · change ∀ descriptor ∈ log'.opened, descriptor < kernel.next
    rw [opened]
    exact books.bounded
  · change (log'.opened.map some).Perm
      (log'.closed ++ (fds.map (Function.update kernel.table fd none) ++ gone))
    rw [opened, closed, map_update absent, List.append_assoc]
    exact books.accounted

section Calls

variable {handle : ModuleHandle}

theorem wp_close (books : Books (fd :: fds) gone world) :
    (perform (.close fd)).wp machine (fun _ after => Books fds gone after) world := by
  rintro _ _ rfl
  exact books.release rfl rfl

/-- What was opened is closed again. -/
theorem wp_closed (books : Books (fd :: fds) gone world) :
    ((perform (.close fd)).bind fun _ => Prog.pure (-1 : Fd)).wp machine
      (fun result after => Books (numbers result ++ fds) gone after) world := by
  rw [Prog.wp_bind]
  apply Prog.wp_mono books.wp_close
  intro _ after books
  rw [Prog.wp_pure, numbers_neg_one]
  exact books

theorem wp_admitPeer (nonneg : 0 ≤ fd) (nonce : UInt32) (books : Books (fd :: fds) gone world) :
    (admitPeer fd nonce).wp machine (fun result after => Books (numbers result ++ fds) gone after)
      world := by
  unfold admitPeer
  rw [Prog.bind_eq, Prog.wp_bind]
  apply Prog.wp_mono (wp_isRootPeer world fd)
  rintro (_ | _) after ⟨rfl, -⟩
  · exact books.wp_closed
  · rw [Bool.not_true, if_neg Bool.false_ne_true, Prog.bind_eq, Prog.wp_bind]
    rintro start asked rfl
    rw [Prog.wp_pure, Prog.bind_eq, Prog.wp_bind]
    apply Prog.wp_mono (wp_still (all_readProof fd _ _ _) _)
    rintro (_ | proof) read rfl
    · exact books.wp_closed
    · change Prog.wp _ (if proof ≠ _ then _ else pure fd) _ _
      split
      · exact books.wp_closed
      · change Books (numbers fd ++ fds) gone _
        rw [numbers_of_nonneg nonneg]
        exact books

theorem wp_acceptChannel (listenFd : Fd) (nonce : UInt32) (timeoutMs : Int)
    (books : Books fds gone world) :
    (acceptChannel listenFd nonce timeoutMs).wp machine
      (fun result after => Books (numbers result ++ fds) gone after) world := by
  have nothing : Books (numbers (-1) ++ fds) gone world := by
    rw [numbers_neg_one]
    exact books
  unfold acceptChannel
  split
  · exact nothing
  · rintro (_ | _) polled rfl
    · exact nothing
    · rintro (_ | fd) accepted step
      · cases step
        exact nothing
      · rcases step with ⟨_, nonneg, free, uid, rfl⟩
        apply Books.wp_admitPeer nonneg
        exact books.install free _ rfl rfl

theorem wp_sendToken (turns : Nat) (data : List UInt8) (books : Books fds gone world) :
    (sendToken fd turns data).wp machine (fun _ after => Books fds gone after) world := by
  induction turns generalizing world data with
  | zero => cases data <;> exact books
  | succ turns ih =>
      cases data with
      | nil => exact books
      | cons byte rest =>
          rintro sent after ⟨_, rfl⟩
          have later : Books fds gone
              (world.1, { world.2 with sent := world.2.sent ++ [world.1.peerAt fd] }) :=
            books.same rfl rfl rfl rfl
          rcases sent with _ | count
          · exact later
          · change Prog.wp _ (if count = 0 then pure false else sendToken fd turns _) _ _
            split
            · exact later
            · exact ih _ later

theorem wp_connectDirect (handle : ModuleHandle) (books : Books fds gone world) :
    (connectDirect handle).wp machine
      (fun result after => Books (numbers result ++ fds) gone after) world := by
  rintro (_ | fd) opened step
  · cases step
    change Books (numbers (-1) ++ fds) gone _
    rw [numbers_neg_one]
    exact books
  · rcases step with ⟨nonneg, free, rfl⟩
    have mine : Books (fd :: fds) gone (world.1.install fd (some {}),
        { world.2 with opened := world.2.opened ++ [world.1.next] }) :=
      books.install free _ rfl rfl
    rintro (_ | uid) connected step
    · cases step
      exact wp_closed mine
    · cases step
      change Prog.wp _ ((sendToken fd _ _).bind _) _ _
      rw [Prog.wp_bind]
      refine Prog.wp_mono (Books.wp_sendToken _ _
        (mine.same (Kernel.table_change _) (Kernel.next_change _) rfl rfl)) ?_
      rintro (_ | _) after books
      · exact books.wp_closed
      · change Books (numbers fd ++ fds) gone after
        rw [numbers_of_nonneg nonneg]
        exact books

/-- One end of a pair is returned or closed, the other is closed. -/
theorem wp_offerPair {channel : Fd} (books : Books fds gone world) :
    (offerPair channel).wp machine (fun offered after =>
      match offered with
      | some fd => 0 ≤ fd ∧ Books (fd :: fds) gone after
      | none => Books fds gone after) world := by
  rintro (_ | ⟨first, second⟩) paired step
  · cases step
    exact books
  · rcases step with ⟨nonneg, _, apart, freeFirst, freeSecond, uid, rfl⟩
    have firstEnd : Books (first :: fds) gone
        (world.1.install first (some { peer := uid, mate := some (world.1.next + 1) }),
          { world.2 with opened := world.2.opened ++ [world.1.next] }) :=
      books.install freeFirst _ rfl rfl
    have stillFree : (world.1.install first
        (some { peer := uid, mate := some (world.1.next + 1) })).table second = none :=
      (Kernel.table_install_of_ne apart.symm).trans freeSecond
    have bothEnds : Books (second :: first :: fds) gone
        ((world.1.install first (some { peer := uid, mate := some (world.1.next + 1) })).install
            second (some { peer := uid, mate := some world.1.next }),
          { world.2 with opened := world.2.opened ++ [world.1.next, world.1.next + 1] }) :=
      firstEnd.install stillFree _
        (List.append_assoc world.2.opened [world.1.next] [world.1.next + 1]).symm rfl
    rintro (_ | _) offered step
    · cases step
      have swapped := bothEnds.perm (List.Perm.swap first second fds)
      change Prog.wp machine ((perform (.close first)).bind fun _ =>
        (perform (.close second)).bind fun _ => Prog.pure none) _ _
      rw [Prog.wp_bind]
      apply Prog.wp_mono swapped.wp_close
      intro _ closed books
      exact books.wp_close
    · cases step
      rintro _ _ rfl
      exact ⟨nonneg, (bothEnds.same rfl rfl rfl rfl).release rfl rfl⟩

/-- A channel is closed once it is dropped. -/
theorem wp_dropChannel (books : Books handle.storedFds gone world) :
    StateProg.wp machine dropChannel (fun _ handle' after => Books handle'.storedFds gone after)
      handle world := by
  unfold dropChannel
  rw [StateProg.wp_bind, StateProg.wp_get]
  split
  case isTrue stored =>
    rw [ModuleHandle.storedFds, numbers_of_nonneg stored] at books
    rw [StateProg.wp_bind, StateProg.wp_lift]
    apply Prog.wp_mono books.wp_close
    intro _ after books
    rw [StateProg.wp_modify, ModuleHandle.storedFds_withoutChannel]
    exact books
  case isFalse => exact books

theorem wp_checkChannel (books : Books handle.storedFds gone world) :
    StateProg.wp machine checkChannel (fun _ handle' after => Books handle'.storedFds gone after)
      handle world := by
  unfold checkChannel
  rw [StateProg.wp_bind, StateProg.wp_get]
  split
  case isTrue =>
    rw [StateProg.wp_bind, StateProg.wp_lift]
    apply Prog.wp_mono (wp_channelUsable world handle.companionChannel)
    rintro (_ | _) after ⟨rfl, -⟩
    · exact books.wp_dropChannel
    · exact books
  case isFalse => exact books

theorem wp_checkListener (books : Books handle.storedFds gone world) :
    StateProg.wp machine checkListener (fun _ handle' after => Books handle'.storedFds gone after)
      handle world := by
  unfold checkListener
  rw [StateProg.wp_bind, StateProg.wp_get]
  split
  case isTrue stored =>
    rw [StateProg.wp_bind, StateProg.wp_lift]
    apply Prog.wp_mono (wp_listenerUsable world handle.companionListenFd)
    rintro (_ | _) after rfl
    · have listenerFirst := books.perm List.perm_append_comm
      rw [numbers_of_nonneg stored] at listenerFirst
      rw [Bool.not_false, if_pos rfl, StateProg.wp_bind, StateProg.wp_lift]
      apply Prog.wp_mono listenerFirst.wp_close
      intro _ closed books
      rw [StateProg.wp_modify, ModuleHandle.storedFds_withoutListener]
      exact books
    · exact books
  case isFalse => exact books

theorem wp_acceptOnce (books : Books handle.storedFds gone world) :
    StateProg.wp machine acceptOnce (fun _ handle' after => Books handle'.storedFds gone after)
      handle world := by
  unfold acceptOnce
  rw [StateProg.wp_bind, StateProg.wp_get]
  split
  case isTrue only =>
    rcases only with ⟨absent, stored⟩
    rw [ModuleHandle.storedFds, numbers_of_neg (not_le.mpr absent), List.nil_append,
      numbers_of_nonneg stored] at books
    rw [StateProg.wp_bind, StateProg.wp_lift]
    apply Prog.wp_mono (books.wp_acceptChannel _ _ _)
    intro channel accepted books
    rw [StateProg.wp_bind, StateProg.wp_lift]
    apply Prog.wp_mono (books.perm List.perm_append_comm).wp_close
    intro _ closed books
    rw [StateProg.wp_modify, ModuleHandle.storedFds_accepted]
    exact books
  case isFalse => exact books

theorem wp_reach (books : Books handle.storedFds gone world) :
    StateProg.wp machine reach
      (fun result handle' after => Books (numbers result ++ handle'.storedFds) gone after)
      handle world := by
  unfold reach
  rw [StateProg.wp_bind, StateProg.wp_get]
  split
  case isTrue =>
    rw [StateProg.wp_bind, StateProg.wp_lift]
    apply Prog.wp_mono books.wp_offerPair
    rintro (_ | moduleFd) offered books
    · rw [StateProg.wp_bind]
      apply StateProg.wp_mono books.wp_dropChannel
      intro _ handle' dropped books
      rw [StateProg.wp_lift]
      exact books.wp_connectDirect handle
    · rcases books with ⟨nonneg, books⟩
      change Books (numbers moduleFd ++ handle.storedFds) gone offered
      rw [numbers_of_nonneg nonneg]
      exact books
  case isFalse =>
    rw [StateProg.wp_lift]
    exact books.wp_connectDirect handle

/-- A call keeps the books, with what it returns. -/
theorem wp_connectCompanion (books : Books handle.storedFds gone world) :
    StateProg.wp machine connectCompanion
      (fun result handle' after => Books (numbers result ++ handle'.storedFds) gone after)
      handle world := by
  unfold connectCompanion
  rw [StateProg.wp_bind, StateProg.wp_get]
  split
  · rw [StateProg.wp_pure, numbers_neg_one]
    exact books
  · rw [StateProg.wp_bind]
    apply StateProg.wp_mono books.wp_checkChannel
    intro _ handle first books
    rw [StateProg.wp_bind]
    apply StateProg.wp_mono books.wp_checkListener
    intro _ handle second books
    rw [StateProg.wp_bind]
    apply StateProg.wp_mono books.wp_acceptOnce
    intro _ handle third books
    exact books.wp_reach

end Calls

end Books

/-- The process in which a module calls: the handle, the descriptor table, and what the handle's
numbers referred to when the last call ended. -/
structure World where
  handle : ModuleHandle
  kernel : Kernel
  log : Log
  stored : List (Option Descriptor)
  returned : List (Option Descriptor)

/-- A call, or what other code of the process does to the descriptor table. -/
inductive Event where
  | call (result : Fd)
  | close (fd : Fd)
  | reuse (fd : Fd) (socket : Option Socket)

/-- The runs begin with a handle whose numbers refer to its own channel and listener. -/
def process : System World Event where
  Initial world :=
    world.stored = world.handle.storedFds.map world.kernel.table ∧ world.returned = [] ∧
      world.log.closed = [] ∧ world.log.opened.map some = world.stored
  Step before event after :=
    match event with
    | .call result => ∃ handle' ended,
        StateProg.Runs machine connectCompanion before.handle (before.kernel, before.log) result
          handle' ended ∧
        after = ⟨handle', ended.1, ended.2, handle'.storedFds.map ended.1.table,
          before.returned ++ (numbers result).map ended.1.table⟩
    | .close fd => after = { before with kernel := before.kernel.release fd }
    | .reuse fd socket =>
        before.kernel.table fd = none ∧
          after = { before with kernel := before.kernel.install fd socket }

/-- What is closed had been opened, nothing is closed twice, and every descriptor that was opened
is closed, stored or returned. -/
structure Clean (world : World) : Prop where
  own : ∀ closed ∈ world.log.closed, ∃ descriptor ∈ world.log.opened, closed = some descriptor
  once : world.log.closed.Nodup
  kept : ∀ descriptor ∈ world.log.opened,
    (world.log.closed ++ (world.stored ++ world.returned)).count (some descriptor) = 1

/-- The numbers of the handle still refer to what was stored. -/
def World.Intact (world : World) : Prop :=
  world.handle.storedFds.map world.kernel.table = world.stored

/-- A call finds the handle's numbers intact. Other code does as it likes. -/
def Undisturbed (world : World) : Event → Prop
  | .call _ => world.Intact
  | .close _ | .reuse _ _ => True

/-- The books of a process, by descriptor. -/
structure Settled (world : World) : Prop where
  opened : world.log.opened.Nodup
  bounded : ∀ descriptor ∈ world.log.opened, descriptor < world.kernel.next
  accounted : (world.log.opened.map some).Perm
    (world.log.closed ++ (world.stored ++ world.returned))

namespace Settled

variable {world after : World} {event : Event}

theorem of_initial (start : process.Initial world) : Settled world := by
  rcases start with ⟨stored, returned, closed, opened⟩
  have each : world.log.opened.map some = world.handle.storedFds.map world.kernel.table :=
    opened.trans stored
  refine ⟨?_, ?_, ?_⟩
  · apply List.Nodup.of_map some
    rw [each]
    refine (List.nodup_map_iff_inj_on world.handle.nodup_storedFds).mpr ?_
    intro fd member other _ same
    have refers : world.kernel.table fd ∈ world.log.opened.map some := by
      rw [each]
      exact List.mem_map_of_mem member
    rcases List.mem_map.mp refers with ⟨descriptor, _, isDescriptor⟩
    exact world.kernel.single fd other descriptor isDescriptor.symm
      (same.symm.trans isDescriptor.symm)
  · intro descriptor member
    have refers : some descriptor ∈ world.handle.storedFds.map world.kernel.table := by
      rw [← each]
      exact List.mem_map_of_mem member
    rcases List.mem_map.mp refers with ⟨fd, _, isDescriptor⟩
    exact world.kernel.bounded fd descriptor isDescriptor
  · rw [closed, returned, opened, List.append_nil, List.nil_append]

theorem books (settled : Settled world) (intact : world.Intact) :
    Books world.handle.storedFds world.returned (world.kernel, world.log) where
  distinct := world.handle.nodup_storedFds
  opened := settled.opened
  bounded := settled.bounded
  accounted := by
    change (world.log.opened.map some).Perm
      (world.log.closed ++ (world.handle.storedFds.map world.kernel.table ++ world.returned))
    rw [intact]
    exact settled.accounted

theorem step (settled : Settled world) (undisturbed : Undisturbed world event)
    (next : process.Step world event after) : Settled after := by
  cases event with
  | call result =>
      rcases next with ⟨handle', ended, run, rfl⟩
      have books := run.of_wp (settled.books undisturbed).wp_connectCompanion
      refine ⟨books.opened, books.bounded, ?_⟩
      refine books.accounted.trans (List.Perm.append_left _ ?_)
      rw [List.map_append, List.append_assoc]
      refine List.perm_append_comm.trans ?_
      rw [List.append_assoc]
  | close fd =>
      cases next
      exact ⟨settled.opened, settled.bounded, settled.accounted⟩
  | reuse fd socket =>
      rcases next with ⟨_, rfl⟩
      refine ⟨settled.opened, fun descriptor member => ?_, settled.accounted⟩
      exact Nat.lt_succ_of_lt (settled.bounded descriptor member)

theorem clean (settled : Settled world) : Clean world := by
  have distinct : (world.log.closed ++ (world.stored ++ world.returned)).Nodup := by
    rw [← settled.accounted.nodup_iff]
    exact settled.opened.map (Option.some_injective _)
  refine ⟨?_, (List.nodup_append.mp distinct).1, ?_⟩
  · intro closed member
    have opened : closed ∈ world.log.opened.map some := by
      rw [settled.accounted.mem_iff]
      exact List.mem_append_left _ member
    rcases List.mem_map.mp opened with ⟨descriptor, isOpened, same⟩
    exact ⟨descriptor, isOpened, same.symm⟩
  · intro descriptor member
    apply List.count_eq_one_of_mem distinct
    rw [← settled.accounted.mem_iff]
    exact List.mem_map_of_mem member

end Settled

/-- In every run the descriptors are closed by their owner. -/
def AlwaysClean : Prop :=
  ∀ world, process.Reachable world → Clean world

/-- A kernel where number 5 is a channel to root. -/
def channelAtFive : Kernel where
  table fd := if fd = 5 then some 0 else none
  sockets _ := some { peer := 0 }
  next := 1
  bounded := by
    intro fd descriptor isDescriptor
    split at isDescriptor
    · cases isDescriptor
      exact Nat.one_pos
    · cases isDescriptor
  single := by
    intro fd other descriptor isDescriptor isOther
    split at isDescriptor
    · split at isOther
      · simp_all
      · cases isOther
    · cases isDescriptor

/-- A handle that has kept its channel under number 5. -/
def holding : ModuleHandle :=
  ⟨true, 1, 2, Vector.replicate 16 7, -1, 5, by decide⟩

/-- Every question is answered truthfully, and nothing is opened. -/
def bare (request : Call) (world : Kernel × Log) : request.Answer × (Kernel × Log) :=
  match request with
  | .fcntlGetfd fd => ((world.1.table fd).isSome, world)
  | .socketType fd => ((world.1.socketAt fd).map Socket.kind, world)
  | .acceptConn fd => ((world.1.socketAt fd).map Socket.accepting, world)
  | .peerCred fd => (world.1.peerAt fd, world)
  | .poll _ _ | .sendmsg _ _ _ => (false, world)
  | .accept _ | .read _ _ | .socketpair | .socket | .connect _ _ => (none, world)
  | .clock => (⟨0, 0⟩, world)
  | .send fd _ => (none, (world.1, { world.2 with sent := world.2.sent ++ [world.1.peerAt fd] }))
  | .close fd =>
      ((), (world.1.release fd, { world.2 with closed := world.2.closed ++ [world.1.table fd] }))

theorem sound_bare (request : Call) (world : Kernel × Log) :
    machine.Step world request (bare request world).1 (bare request world).2 := by
  cases request with
  | fcntlGetfd fd =>
      change machine.Step world (.fcntlGetfd fd) (world.1.table fd).isSome world
      cases present : (world.1.table fd).isSome with
      | true => exact ⟨present, rfl⟩
      | false => rfl
  | socketType fd =>
      change machine.Step world (.socketType fd) ((world.1.socketAt fd).map Socket.kind) world
      cases kind : (world.1.socketAt fd).map Socket.kind with
      | some value => exact ⟨kind, rfl⟩
      | none => rfl
  | acceptConn fd =>
      change machine.Step world (.acceptConn fd) ((world.1.socketAt fd).map Socket.accepting) world
      cases accepting : (world.1.socketAt fd).map Socket.accepting with
      | some value => exact ⟨accepting, rfl⟩
      | none => rfl
  | peerCred fd =>
      change machine.Step world (.peerCred fd) (world.1.peerAt fd) world
      cases peer : world.1.peerAt fd with
      | some uid => exact ⟨peer, rfl⟩
      | none => rfl
  | send fd data => exact ⟨nofun, rfl⟩
  | _ => rfl

/-- A call in the kernel that opens nothing. -/
def World.callBare (world : World) : World :=
  let ran := (connectCompanion.run world.handle).eval bare (world.kernel, world.log)
  ⟨ran.1.2, ran.2.1, ran.2.2, ran.1.2.storedFds.map ran.2.1.table,
    world.returned ++ (numbers ran.1.1).map ran.2.1.table⟩

theorem step_callBare (world : World) :
    process.Step world
      (.call ((connectCompanion.run world.handle).eval bare (world.kernel, world.log)).1.1)
      world.callBare :=
  ⟨_, _, Prog.runs_eval sound_bare _ _, rfl⟩

def begun : World :=
  ⟨holding, channelAtFive, { opened := [0] }, [some 0], []⟩

theorem initial_begun : process.Initial begun :=
  ⟨rfl, rfl, rfl, rfl⟩

/-- Other code has closed the channel, and the number belongs to one of its files. -/
def begun.reused : World :=
  { begun with kernel := (channelAtFive.release 5).install 5 none }

/-- The file is closed. -/
theorem foreign_file_closed : ¬AlwaysClean := by
  intro always
  have released : process.Step begun (.close 5)
      { begun with kernel := channelAtFive.release 5 } := rfl
  have reused : process.Step { begun with kernel := channelAtFive.release 5 } (.reuse 5 none)
      begun.reused := ⟨rfl, rfl⟩
  have reached : process.Reachable begun.reused :=
    ((System.Reachable.initial initial_begun).step released).step reused
  have clean := always _ (reached.step (step_callBare begun.reused))
  have closed : begun.reused.callBare.log.closed = [some 1] := rfl
  have opened : begun.reused.callBare.log.opened = [0] := rfl
  rcases clean.own (some 1) (closed ▸ List.mem_cons_self) with ⟨descriptor, member, same⟩
  rw [opened, List.mem_singleton] at member
  subst member
  cases same

/-- As long as every call finds the handle's numbers referring to what was stored, the companion's
descriptors are closed by their owner, and every one of them once. -/
theorem clean_of_undisturbed {world : World}
    (reached : (process.restrict Undisturbed).Reachable world) : Clean world := by
  have settled : Settled world := by
    apply reached.induct
    · intro start isInitial
      exact Settled.of_initial isInitial
    · intro before event after settled undisturbed next
      exact settled.step undisturbed next
  exact settled.clean

/-- No pair is to be had, and the channel is dropped. -/
theorem clean_begun : Clean begun.callBare := by
  apply clean_of_undisturbed
  have intact : begun.Intact := rfl
  have called : (process.restrict Undisturbed).Step begun (.call _) begun.callBare :=
    ⟨intact, step_callBare begun⟩
  have start : (process.restrict Undisturbed).Reachable begun := .initial initial_begun
  exact start.step called

end Znn.Loader.Companion
