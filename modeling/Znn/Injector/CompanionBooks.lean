import Znn.Injector.Companion

/-!
# What a helper hands over

Every descriptor that a helper gets is closed once or handed over once, unless it still serves from
it or it came with a message whose control data was truncated: these are never closed. What is
handed over has proved itself with the token, or it came over the channel with the request to
connect; the requests of the channel are served in their order, and none is left out.
-/

namespace Znn.Injector.Companion

open Interaction

/-- What a descriptor of the helper is. -/
inductive Status where
  | library
  | listener
  | channel
  /-- A direct connection, and what has been read from it. -/
  | accepted (proof : Option (List UInt8))
  /-- The first descriptor of a message, by the number of the message. -/
  | passed (message : Nat)
  /-- A further one. -/
  | spare
  /-- A descriptor of a message whose control data was truncated. -/
  | lost
deriving DecidableEq

/-- The number of the message that a descriptor came with. -/
def Status.message : Status → Option Nat
  | .passed message => some message
  | _ => none

/-- The message asks for a connection, and carries it. -/
def Message.connects (message : Message) : Bool :=
  !message.truncated && message.bytes ≠ 0 && message.command = CONNECT &&
    message.descriptors ≠ []

/-- The descriptors of a helper, the messages it has received, what it has handed over and closed,
and the code it has ended with. -/
structure World where
  table : Fd → Option Status
  received : List Message
  served : List (Option Status)
  closed : List (Option Status)
  exited : Option Int

namespace World

def empty : World :=
  ⟨fun _ => none, [], [], [], none⟩

def install (world : World) (fd : Fd) (status : Status) : World :=
  { world with table := Function.update world.table fd (some status) }

def release (world : World) (fd : Fd) : World :=
  { world with table := Function.update world.table fd none }

def installAll (world : World) (status : Status) : List Fd → World
  | [] => world
  | fd :: rest => (world.installAll status rest).install fd status

/-- The descriptors of the next message. -/
def deliver (world : World) (message : Message) : World :=
  let world' :=
    if message.truncated then
      world.installAll .lost message.descriptors
    else
      match message.descriptors with
      | [] => world
      | first :: rest =>
          (world.installAll .spare rest).install first (.passed world.received.length)
  { world' with received := world.received ++ [message] }

end World

/-- The numbers of the messages that ask for a connection. -/
def requests (received : List Message) : List Nat :=
  (List.range received.length).filter fun number => (received[number]?).any Message.connects

/-- The descriptors of the messages whose control data was truncated. -/
def lost (received : List Message) : List Fd :=
  (received.filter Message.truncated).flatMap Message.descriptors

/-- The kernel gives out free numbers; any request may fail. What is handed over and what is closed
is recorded. -/
def machine : Machine Sys World where
  Step before request answer after :=
    match request, answer with
    | .memfdCreate, some fd => before.table fd = none ∧ after = before.install fd .library
    | .bind _, some fd => before.table fd = none ∧ after = before.install fd .listener
    | .connect _, some fd => before.table fd = none ∧ after = before.install fd .channel
    | .accept _, .stream fd => before.table fd = none ∧ after = before.install fd (.accepted none)
    | .readExact fd count, some bytes =>
        bytes.length = count ∧
          after = if before.table fd = some (.accepted none) then
            before.install fd (.accepted (some bytes)) else before
    | .recvmsg _, some message =>
        message.descriptors.Nodup ∧ (∀ fd ∈ message.descriptors, before.table fd = none) ∧
          after = before.deliver message
    | .openFromFd _ fd, _ => after = before.release fd
    | .notifyConnected fd, _ =>
        after = { before.release fd with served := before.served ++ [before.table fd] }
    | .close fd, _ =>
        after = { before.release fd with closed := before.closed ++ [before.table fd] }
    | .exit code, _ => after = { before with exited := some code }
    | _, _ => after = before

/-- The runs of a helper: each of its turns is a step, until it has ended. -/
def helper (library : String) (nonce index : UInt32) (token : Vector UInt8 16) :
    System (Option State × World) Unit where
  Initial ran := (start library nonce index).Runs machine .empty ran.1 ran.2
  Step before _ after := ∃ state, before.1 = some state ∧
    (turn nonce index token state).Runs machine before.2 after.1 after.2

/-- The descriptors that are open, with what they are. -/
structure Books (own : List (Fd × Status)) (world : World) : Prop where
  distinct : (own.map Prod.fst).Nodup
  table : ∀ fd status, world.table fd = some status ↔ (fd, status) ∈ own
  closed : none ∉ world.closed

/-- What was handed over has proved itself or was asked for; the requests were served in their
order, but for those that are due. -/
structure Logged (token : Vector UInt8 16) (due : List Nat) (world : World) : Prop where
  proved : ∀ status ∈ world.served, status = some (.accepted (some token.toList)) ∨
    ∃ number, status = some (.passed number)
  inOrder : (world.served.filterMap fun status => status.bind Status.message) ++ due =
    requests world.received

/-- Both, of a helper that has these descriptors besides those that are lost. -/
structure Sound (token : Vector UInt8 16) (own : List (Fd × Status)) (due : List Nat)
    (world : World) : Prop where
  books : Books (own ++ (lost world.received).map fun fd => (fd, .lost)) world
  logged : Logged token due world

section Rules

variable {own : List (Fd × Status)} {due : List Nat} {world : World} {token : Vector UInt8 16}
  {fd : Fd} {status : Status}

theorem Books.free (books : Books own world) (isFree : world.table fd = none) :
    fd ∉ own.map Prod.fst := by
  intro present
  rcases List.mem_map.mp present with ⟨⟨_, status⟩, member, rfl⟩
  rw [(books.table _ status).mpr member] at isFree
  cases isFree

theorem Books.install (books : Books own world) (isFree : world.table fd = none) :
    Books ((fd, status) :: own) (world.install fd status) where
  distinct := by
    rw [List.map_cons, List.nodup_cons]
    exact ⟨books.free isFree, books.distinct⟩
  table := by
    intro other otherStatus
    rw [List.mem_cons, ← books.table]
    by_cases same : other = fd
    · subst same
      simp [World.install, isFree, eq_comm]
    · simp [World.install, same]
  closed := books.closed

/-- A descriptor that is given away is no longer in the books. -/
theorem Books.release (books : Books ((fd, status) :: own) world) : Books own (world.release fd) where
  distinct := (List.nodup_cons.mp books.distinct).2
  table := by
    intro other otherStatus
    by_cases same : other = fd
    · subst same
      have absent := (List.nodup_cons.mp books.distinct).1
      have free : (other, otherStatus) ∉ own :=
        fun member => absent (List.mem_map.mpr ⟨_, member, rfl⟩)
      simp [World.release, free]
    · have isTable := books.table other otherStatus
      rw [List.mem_cons] at isTable
      simp [World.release, isTable, same]
  closed := books.closed

theorem Books.isOpen (books : Books ((fd, status) :: own) world) : world.table fd = some status :=
  (books.table fd status).mpr List.mem_cons_self

theorem Books.perm {own' : List (Fd × Status)} (books : Books own world) (same : own.Perm own') :
    Books own' world where
  distinct := (same.map Prod.fst).nodup_iff.mp books.distinct
  table := fun fd status => (books.table fd status).trans same.mem_iff
  closed := books.closed

theorem wp_close (sound : Sound token ((fd, status) :: own) due world) :
    (perform (.close fd)).wp machine (fun _ after => Sound token own due after) world := by
  rintro _ _ rfl
  have released := sound.books.release
  refine ⟨⟨released.distinct, released.table, ?_⟩, sound.logged.proved, sound.logged.inOrder⟩
  rw [List.mem_append, List.mem_singleton, sound.books.isOpen]
  rintro (earlier | same)
  · exact sound.books.closed earlier
  · cases same

theorem table_installAll {fds : List Fd} (absent : fd ∉ fds) :
    (world.installAll status fds).table fd = world.table fd := by
  induction fds with
  | nil => rfl
  | cons first rest ih =>
      rw [List.mem_cons, not_or] at absent
      rw [World.installAll, World.install]
      dsimp only
      rw [Function.update_of_ne absent.1, ih absent.2]

theorem logs_installAll (fds : List Fd) :
    (world.installAll status fds).received = world.received ∧
      (world.installAll status fds).served = world.served ∧
      (world.installAll status fds).closed = world.closed := by
  induction fds with
  | nil => exact ⟨rfl, rfl, rfl⟩
  | cons first rest ih => exact ih

theorem Books.installAll {fds : List Fd} (books : Books own world) (distinct : fds.Nodup)
    (isFree : ∀ fd ∈ fds, world.table fd = none) :
    Books (fds.map (fun fd => (fd, status)) ++ own) (world.installAll status fds) := by
  induction fds with
  | nil => exact books
  | cons first rest ih =>
      rcases List.nodup_cons.mp distinct with ⟨absent, distinct⟩
      have earlier := ih distinct fun fd member => isFree fd (List.mem_cons_of_mem _ member)
      apply earlier.install
      rw [table_installAll absent]
      exact isFree first List.mem_cons_self

theorem requests_concat (received : List Message) (message : Message) :
    requests (received ++ [message]) =
      requests received ++ if message.connects then [received.length] else [] := by
  unfold requests
  rw [List.length_append, List.length_singleton, List.range_succ, List.filter_append]
  congr 1
  · apply List.filter_congr
    intro number inside
    rw [List.getElem?_append_left (List.mem_range.mp inside)]
  · cases connects : message.connects <;> simp [connects]

theorem logs_deliver (message : Message) :
    (world.deliver message).received = world.received ++ [message] ∧
      (world.deliver message).served = world.served := by
  unfold World.deliver
  split
  · exact ⟨rfl, (logs_installAll message.descriptors).2.1⟩
  · cases message.descriptors with
    | nil => exact ⟨rfl, rfl⟩
    | cons first rest => exact ⟨rfl, (logs_installAll rest).2.1⟩

theorem Books.deliver {message : Message} (books : Books own world)
    (whole : ¬message.truncated) (distinct : message.descriptors.Nodup)
    (isFree : ∀ fd ∈ message.descriptors, world.table fd = none) :
    Books (message.descriptors.head?.toList.map (fun fd => (fd, .passed world.received.length)) ++
      ((message.descriptors.drop 1).map (fun fd => (fd, .spare)) ++ own))
      (world.deliver message) := by
  unfold World.deliver
  rw [if_neg whole]
  cases isList : message.descriptors with
  | nil => exact ⟨books.distinct, books.table, books.closed⟩
  | cons first rest =>
      rw [isList] at distinct isFree
      rcases List.nodup_cons.mp distinct with ⟨absent, distinct⟩
      have spares : Books (rest.map (fun fd => (fd, .spare)) ++ own)
          (world.installAll .spare rest) :=
        books.installAll distinct fun fd member => isFree fd (List.mem_cons_of_mem _ member)
      have free : (world.installAll .spare rest).table first = none := by
        rw [table_installAll absent]
        exact isFree first List.mem_cons_self
      have installed : Books ((first, .passed world.received.length) ::
          (rest.map (fun fd => (fd, .spare)) ++ own)) _ := spares.install free
      exact ⟨installed.distinct, installed.table, installed.closed⟩

theorem lost_concat (received : List Message) (message : Message) :
    lost (received ++ [message]) =
      lost received ++ if message.truncated then message.descriptors else [] := by
  rw [lost, lost, List.filter_append, List.flatMap_append]
  cases truncated : message.truncated <;> simp [truncated]

theorem Logged.deliver {message : Message} (logged : Logged token [] world) :
    Logged token (if message.connects then [world.received.length] else [])
      (world.deliver message) := by
  rcases logs_deliver message with ⟨received, served⟩
  constructor
  · rw [served]
    exact logged.proved
  · have inOrder := logged.inOrder
    rw [List.append_nil] at inOrder
    rw [served, received, requests_concat, inOrder]

/-- A whole message has come: its descriptors are in the books, and its request is due. -/
theorem Sound.deliver {message : Message} (sound : Sound token own [] world)
    (whole : ¬message.truncated) (distinct : message.descriptors.Nodup)
    (isFree : ∀ fd ∈ message.descriptors, world.table fd = none) :
    Sound token
      (message.descriptors.head?.toList.map (fun fd => (fd, .passed world.received.length)) ++
        ((message.descriptors.drop 1).map (fun fd => (fd, .spare)) ++ own))
      (if message.connects then [world.received.length] else []) (world.deliver message) := by
  refine ⟨?_, sound.logged.deliver⟩
  rw [(logs_deliver message).1, lost_concat, if_neg whole, List.append_nil, List.append_assoc,
    List.append_assoc]
  exact sound.books.deliver whole distinct isFree

/-- A truncated message has come: its descriptors are lost. -/
theorem Sound.lose {message : Message} (sound : Sound token own [] world)
    (truncated : message.truncated) (distinct : message.descriptors.Nodup)
    (isFree : ∀ fd ∈ message.descriptors, world.table fd = none) :
    Sound token own [] (world.deliver message) := by
  have silent : message.connects = false := by
    simp [Message.connects, truncated]
  have logged := @Logged.deliver _ _ message sound.logged
  rw [silent, if_neg Bool.false_ne_true] at logged
  refine ⟨?_, logged⟩
  rw [(logs_deliver message).1, lost_concat, if_pos truncated, List.map_append]
  have installed : Books (message.descriptors.map (fun fd => (fd, .lost)) ++
      (own ++ (lost world.received).map fun fd => (fd, .lost)))
      (world.installAll .lost message.descriptors) :=
    sound.books.installAll distinct isFree
  unfold World.deliver
  rw [if_pos truncated]
  have same := installed.perm (List.perm_append_comm.trans (List.Perm.of_eq (List.append_assoc ..)))
  exact ⟨same.distinct, same.table, same.closed⟩

theorem Sound.perm {own' : List (Fd × Status)} (sound : Sound token own due world)
    (same : own.Perm own') : Sound token own' due world :=
  ⟨sound.books.perm (same.append_right _), sound.logged⟩

/-- The books of the sockets. -/
def owned (channel direct : Option Fd) : List (Fd × Status) :=
  channel.toList.map (fun fd => (fd, .channel)) ++ direct.toList.map (fun fd => (fd, .listener))

/-- A helper between its turns holds its sockets, and one that has ended well holds nothing. -/
def Kept (token : Vector UInt8 16) : Option State → World → Prop
  | some state, world => Sound token (owned state.channel state.direct) [] world
  | none, world => ∃ own, Sound token own [] world ∧ (world.exited = some 0 → own = [])

variable {channel direct : Option Fd}

theorem sound_empty : Sound token [] [] .empty := by
  refine ⟨⟨.nil, ?_, List.not_mem_nil⟩, ?_, rfl⟩
  · intro fd status
    simp [World.empty, lost]
  · exact fun status present => absurd present List.not_mem_nil

end Rules

section Runs

variable {library : String} {nonce index : UInt32} {token : Vector UInt8 16}

/-- A channel that asks for one connection, and a direct connection that knows the token. -/
def obliging (token : Vector UInt8 16) (request : Call) (world : World) : request.Answer × World :=
  match request with
  | .dlopen _ | .companion | .setNonblocking _ | .writeAll _ _ => (true, world)
  | .bind _ => if world.table 3 = none then (some 3, world.install 3 .listener) else (none, world)
  | .connect _ => if world.table 4 = none then (some 4, world.install 4 .channel) else (none, world)
  | .now => (0, world)
  | .poll _ => (.ready [true, true], world)
  | .recvmsg _ =>
      if world.received = [] ∧ world.table 5 = none then
        (some ⟨1, CONNECT, [5], false⟩, world.deliver ⟨1, CONNECT, [5], false⟩)
      else
        (none, world)
  | .accept _ =>
      if world.served.length < 2 ∧ world.table 6 = none then
        (.stream 6, world.install 6 (.accepted none))
      else
        (.wouldBlock, world)
  | .readExact fd count =>
      if token.toList.length = count then
        (some token.toList, if world.table fd = some (.accepted none) then
          world.install fd (.accepted (some token.toList)) else world)
      else
        (none, world)
  | .notifyConnected fd =>
      ((), { world.release fd with served := world.served ++ [world.table fd] })
  | .close fd => ((), { world.release fd with closed := world.closed ++ [world.table fd] })
  | .exit code => ((), { world with exited := some code })
  | .openFromFd _ fd => (false, world.release fd)
  | .readFile _ | .memfdCreate => (none, world)
  | .notifyLoaded | .sleep => ((), world)

/-- A helper after some turns with it. -/
def turned (token : Vector UInt8 16) : Nat → Option State × World
  | 0 => (start "libcompanion.so" 1 2).eval (obliging token) .empty
  | turns + 1 =>
      match (turned token turns).1 with
      | some state => (turn 1 2 token state).eval (obliging token) (turned token turns).2
      | none => turned token turns

end Runs

end Znn.Injector.Companion
