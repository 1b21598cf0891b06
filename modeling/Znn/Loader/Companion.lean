import Mathlib.Logic.Function.Basic
import Znn.Bytes.Order
import Znn.Interaction.Semantics

/-!
# Connections to the companion

`connectCompanion` has three ways to reach the helper of a module: over the channel that it has
inherited or accepted earlier, over a channel that it accepts now, and directly over the helper's
own name. A module handle keeps descriptor numbers from one call to the next; whatever else runs in
the process may have closed them by then. The kernel is the descriptor table with the sockets in
it. Who listens on a name and who connects to one is up to the environment.
-/

namespace Znn.Loader

open Interaction

namespace Companion

/-- A descriptor number, or -1. -/
abbrev Fd : Type := Int

/-- One entry of the descriptor table, from its opening to its close. -/
abbrev Descriptor : Type := Nat

abbrev Uid : Type := UInt32

def SOCK_STREAM : Nat := 1
def kChannelConnect : UInt8 := 1
def kChannelAcceptTimeoutMs : Int := 2000
def kNonceBytes : Nat := 4
def kCompanionTokenBytes : Nat := 16

/-- What `SO_PEERCRED` says of a socket that is not connected. -/
def unconnected : Uid := 4294967295

structure Socket where
  kind : Nat := SOCK_STREAM
  accepting : Bool := false
  peer : Uid := unconnected
  /-- The other end, of a socket pair. -/
  mate : Option Descriptor := none
deriving DecidableEq, Repr

/-- The descriptor table, and which descriptors are sockets. Every descriptor has one number. -/
structure Kernel where
  table : Fd → Option Descriptor
  sockets : Descriptor → Option Socket
  next : Descriptor
  bounded : ∀ fd descriptor, table fd = some descriptor → descriptor < next
  single : ∀ fd other descriptor, table fd = some descriptor → table other = some descriptor →
    fd = other

namespace Kernel

def socketAt (kernel : Kernel) (fd : Fd) : Option Socket :=
  (kernel.table fd).bind kernel.sockets

def peerAt (kernel : Kernel) (fd : Fd) : Option Uid :=
  (kernel.socketAt fd).map Socket.peer

/-- A new descriptor under a number. -/
def install (kernel : Kernel) (fd : Fd) (socket : Option Socket) : Kernel where
  table := Function.update kernel.table fd (some kernel.next)
  sockets := Function.update kernel.sockets kernel.next socket
  next := kernel.next + 1
  bounded := by
    intro other descriptor isDescriptor
    rw [Function.update_apply] at isDescriptor
    split at isDescriptor
    · cases isDescriptor
      exact Nat.lt_succ_self _
    · exact Nat.lt_succ_of_lt (kernel.bounded other descriptor isDescriptor)
  single := by
    intro first second descriptor isFirst isSecond
    rw [Function.update_apply] at isFirst isSecond
    split at isFirst
    · rename_i atFd
      split at isSecond
      · rename_i alsoAtFd
        exact atFd.trans alsoAtFd.symm
      · cases isFirst
        exact absurd (kernel.bounded second _ isSecond) (Nat.lt_irrefl _)
    · split at isSecond
      · cases isSecond
        exact absurd (kernel.bounded first _ isFirst) (Nat.lt_irrefl _)
      · exact kernel.single first second descriptor isFirst isSecond

/-- The number is free. -/
def release (kernel : Kernel) (fd : Fd) : Kernel where
  table := Function.update kernel.table fd none
  sockets := kernel.sockets
  next := kernel.next
  bounded := by
    intro other descriptor isDescriptor
    rw [Function.update_apply] at isDescriptor
    split at isDescriptor
    · cases isDescriptor
    · exact kernel.bounded other descriptor isDescriptor
  single := by
    intro first second descriptor isFirst isSecond
    rw [Function.update_apply] at isFirst isSecond
    split at isFirst
    · cases isFirst
    · split at isSecond
      · cases isSecond
      · exact kernel.single first second descriptor isFirst isSecond

/-- The socket under a number is changed. -/
def change (kernel : Kernel) (fd : Fd) (changed : Socket → Socket) : Kernel :=
  match kernel.table fd with
  | some descriptor =>
      { kernel with
        sockets := Function.update kernel.sockets descriptor
          ((kernel.sockets descriptor).map changed) }
  | none => kernel

variable {kernel : Kernel} {fd other : Fd} {socket : Option Socket}

theorem socketAt_install_self : (kernel.install fd socket).socketAt fd = socket := by
  simp [socketAt, install]

theorem table_install_of_ne (apart : other ≠ fd) :
    (kernel.install fd socket).table other = kernel.table other :=
  Function.update_of_ne apart _ _

theorem socketAt_install_of_ne (apart : other ≠ fd) :
    (kernel.install fd socket).socketAt other = kernel.socketAt other := by
  rw [socketAt, table_install_of_ne apart, socketAt]
  cases isDescriptor : kernel.table other with
  | none => rfl
  | some descriptor =>
      have older : descriptor ≠ kernel.next :=
        Nat.ne_of_lt (kernel.bounded other descriptor isDescriptor)
      exact Function.update_of_ne older _ _

theorem table_release_of_ne (apart : other ≠ fd) :
    (kernel.release fd).table other = kernel.table other :=
  Function.update_of_ne apart _ _

theorem socketAt_release_of_ne (apart : other ≠ fd) :
    (kernel.release fd).socketAt other = kernel.socketAt other := by
  rw [socketAt, table_release_of_ne apart]
  rfl

@[simp]
theorem table_change (changed : Socket → Socket) : (kernel.change fd changed).table = kernel.table := by
  unfold change
  split <;> rfl

@[simp]
theorem next_change (changed : Socket → Socket) : (kernel.change fd changed).next = kernel.next := by
  unfold change
  split <;> rfl

theorem socketAt_change_self (changed : Socket → Socket) :
    (kernel.change fd changed).socketAt fd = (kernel.socketAt fd).map changed := by
  rw [socketAt, table_change, socketAt, change]
  cases kernel.table fd with
  | none => rfl
  | some descriptor => exact Function.update_self _ _ _

end Kernel

/-- The requests of `connectCompanion`. A request that is interrupted is made again: its answer is
that of the last time. -/
inductive Call where
  | fcntlGetfd (fd : Fd)
  | socketType (fd : Fd)
  | acceptConn (fd : Fd)
  | peerCred (fd : Fd)
  | poll (fd : Fd) (timeoutMs : Int)
  | accept (fd : Fd)
  | clock
  | read (fd : Fd) (count : Nat)
  | socket
  /-- Whom the connection reaches; the caller is told only whether it reaches anyone. -/
  | connect (fd : Fd) (name : String)
  | send (fd : Fd) (data : List UInt8)
  | socketpair
  | sendmsg (fd : Fd) (command : UInt8) (payload : Fd)
  | close (fd : Fd)
deriving DecidableEq

structure Timespec where
  sec : Int
  nsec : Int
deriving DecidableEq, Repr

abbrev Call.Answer : Call → Type
  | .fcntlGetfd _ | .poll _ _ | .sendmsg _ _ _ => Bool
  | .socketType _ | .send _ _ => Option Nat
  | .acceptConn _ => Option Bool
  | .peerCred _ | .connect _ _ => Option Uid
  | .accept _ | .socket => Option Fd
  | .clock => Timespec
  | .read _ _ => Option (List UInt8)
  | .socketpair => Option (Fd × Fd)
  | .close _ => Unit

abbrev Sys : Interface where
  Call := Call
  Answer := Call.Answer

abbrev perform (request : Call) : Prog Sys request.Answer :=
  Prog.perform (I := Sys) request

/-- What a module keeps of its companion. The two stored numbers are never the same one. -/
structure ModuleHandle where
  hasCompanion : Bool
  companionNonce : UInt32
  companionIndex : UInt32
  companionToken : Vector UInt8 16
  companionListenFd : Fd
  companionChannel : Fd
  apart : 0 ≤ companionChannel → companionChannel ≠ companionListenFd

namespace ModuleHandle

/-- `companion_channel = -1`. -/
def withoutChannel (handle : ModuleHandle) : ModuleHandle :=
  { handle with
    companionChannel := -1
    apart := fun negative => absurd negative (by decide) }

/-- `companion_listen_fd = -1`. -/
def withoutListener (handle : ModuleHandle) : ModuleHandle :=
  { handle with
    companionListenFd := -1
    apart := fun stored same => absurd (same ▸ stored) (by decide) }

/-- The channel takes the place of the listener. -/
def accepted (handle : ModuleHandle) (channel : Fd) : ModuleHandle :=
  { handle with
    companionListenFd := -1
    companionChannel := channel
    apart := fun stored same => absurd (same ▸ stored) (by decide) }

end ModuleHandle

section Channels

/-- `%08x`. -/
def hex (value : UInt32) : String :=
  String.ofList ((Nat.toDigits 16 value.toNat).leftpad 8 '0')

/-- `directChannelName`, without the leading zero byte. -/
def directChannelName (nonce index : UInt32) : String :=
  "znn.c." ++ hex nonce ++ "." ++ toString index.toNat

def isRootPeer (fd : Fd) : Prog Sys Bool := do
  let some uid ← perform (.peerCred fd)
    | return false
  return uid = 0

/-- What `channelUsable` and `listenerUsable` share: whether the number is a stream socket, and
whether it accepts connections. -/
def streamSocket (fd : Fd) : Prog Sys (Option Bool) := do
  if fd < 0 then
    return none
  if !(← perform (.fcntlGetfd fd)) then
    return none
  let some kind ← perform (.socketType fd)
    | return none
  if kind ≠ SOCK_STREAM then
    return none
  perform (.acceptConn fd)

def channelUsable (fd : Fd) : Prog Sys Bool := do
  let some accepting ← streamSocket fd
    | return false
  if accepting then
    return false
  let some uid ← perform (.peerCred fd)
    | return false
  return uid = 0

def listenerUsable (fd : Fd) : Prog Sys Bool := do
  let some accepting ← streamSocket fd
    | return false
  return accepting

/-- The loop that sends the token. Every turn but the last sends a byte or more. -/
def sendToken (fd : Fd) : Nat → List UInt8 → Prog Sys Bool
  | _, [] => return true
  | 0, _ :: _ => return false
  | turns + 1, data => do
      let some sent ← perform (.send fd data)
        | return false
      if sent = 0 then
        return false
      sendToken fd turns (data.drop sent)

def connectCompanionChannel (nonce index : UInt32) (token : Vector UInt8 16) : Prog Sys Fd := do
  let some fd ← perform .socket
    | return -1
  let some _ ← perform (.connect fd (directChannelName nonce index))
    | do
      perform (.close fd)
      return -1
  if !(← sendToken fd kCompanionTokenBytes token.toList) then
    perform (.close fd)
    return -1
  return fd

def Timespec.plusTimeout (time : Timespec) : Timespec :=
  let sec := time.sec + kChannelAcceptTimeoutMs / 1000
  let nsec := time.nsec + kChannelAcceptTimeoutMs % 1000 * 1000000
  if nsec ≥ 1000000000 then
    ⟨sec + 1, nsec - 1000000000⟩
  else
    ⟨sec, nsec⟩

/-- The milliseconds that are left, at least 0. -/
def Timespec.remainingMs (deadline now : Timespec) : Int :=
  let remaining := (deadline.sec - now.sec) * 1000 + (deadline.nsec - now.nsec).tdiv 1000000
  if remaining > 0 then remaining else 0

/-- The loop that reads the nonce. Every turn but the last reads a byte or more. -/
def readProof (fd : Fd) (deadline : Timespec) : Nat → List UInt8 →
    Prog Sys (Option (List UInt8))
  | 0, proof => return some proof
  | turns + 1, proof => do
      if proof.length < kNonceBytes then
        let now ← perform .clock
        if !(← perform (.poll fd (deadline.remainingMs now))) then
          return none
        let some bytes ← perform (.read fd (kNonceBytes - proof.length))
          | return none
        if bytes = [] then
          return none
        readProof fd deadline turns (proof ++ bytes)
      else
        return some proof

/-- The end of `acceptChannel`: the connection is kept if root has made it and knows the nonce. -/
def admitPeer (fd : Fd) (nonce : UInt32) : Prog Sys Fd := do
  if !(← isRootPeer fd) then
    perform (.close fd)
    return -1
  let start ← perform .clock
  let some proof ← readProof fd start.plusTimeout kNonceBytes []
    | do
      perform (.close fd)
      return -1
  if proof ≠ Bytes.little kNonceBytes nonce.toNat then
    perform (.close fd)
    return -1
  return fd

def acceptChannel (listenFd : Fd) (nonce : UInt32) (timeoutMs : Int) : Prog Sys Fd := do
  if listenFd < 0 then
    return -1
  if !(← perform (.poll listenFd timeoutMs)) then
    return -1
  let some fd ← perform (.accept listenFd)
    | return -1
  admitPeer fd nonce

end Channels

section Connect

def connectDirect (handle : ModuleHandle) : Prog Sys Fd :=
  connectCompanionChannel handle.companionNonce handle.companionIndex handle.companionToken

def dropChannel : StateProg Sys ModuleHandle Unit := do
  let handle ← get
  if 0 ≤ handle.companionChannel then
    perform (.close handle.companionChannel)
    modify ModuleHandle.withoutChannel

/-- The first lines of `connectCompanion`: a channel that is of no use is dropped. -/
def checkChannel : StateProg Sys ModuleHandle Unit := do
  let handle ← get
  if 0 ≤ handle.companionChannel then
    if !(← channelUsable handle.companionChannel) then
      dropChannel

/-- A listener that is of no use is closed. -/
def checkListener : StateProg Sys ModuleHandle Unit := do
  let handle ← get
  if 0 ≤ handle.companionListenFd then
    if !(← listenerUsable handle.companionListenFd) then
      perform (.close handle.companionListenFd)
      modify ModuleHandle.withoutListener

/-- Without a channel one is accepted, and the listener is closed. -/
def acceptOnce : StateProg Sys ModuleHandle Unit := do
  let handle ← get
  if handle.companionChannel < 0 ∧ 0 ≤ handle.companionListenFd then
    let channel ← acceptChannel handle.companionListenFd handle.companionNonce
      kChannelAcceptTimeoutMs
    perform (.close handle.companionListenFd)
    modify fun handle => handle.accepted channel

/-- `makePeerPair` and `sendFrame`: one end of a pair goes to the helper, the other to the caller. -/
def offerPair (channel : Fd) : Prog Sys (Option Fd) := do
  let some (moduleFd, helperFd) ← perform .socketpair
    | return none
  if ← perform (.sendmsg channel kChannelConnect helperFd) then
    perform (.close helperFd)
    return some moduleFd
  perform (.close moduleFd)
  perform (.close helperFd)
  return none

/-- The end of `connectCompanion`: over the channel, or directly. -/
def reach : StateProg Sys ModuleHandle Fd := do
  let handle ← get
  if 0 ≤ handle.companionChannel then
    if let some moduleFd ← offerPair handle.companionChannel then
      return moduleFd
    dropChannel
  connectDirect handle

/-- `connectCompanion`. -/
def connectCompanion : StateProg Sys ModuleHandle Fd := do
  if !(← get).hasCompanion then
    return -1
  checkChannel
  checkListener
  acceptOnce
  reach

end Connect

/-- What a call does that outlives it. -/
structure Log where
  /-- The descriptors that it has opened. -/
  opened : List Descriptor := []
  /-- What the numbers referred to that it has closed. -/
  closed : List (Option Descriptor) := []
  /-- Whom its direct connections have reached. -/
  reached : List Uid := []
  /-- The peers of the connections on which it has sent the token, or a part of it. -/
  sent : List (Option Uid) := []
  /-- The descriptors that it has handed over, and the peers of the channels it did so on. -/
  handed : List (Option Descriptor × Option Uid) := []

/-- The kernel. Any request may fail; names and connections belong to any process. -/
def machine : Machine Sys (Kernel × Log) where
  Step before request answer after :=
    let (kernel, log) := before
    match request, answer with
    | .fcntlGetfd fd, true => (kernel.table fd).isSome = true ∧ after = before
    | .socketType fd, some kind =>
        (kernel.socketAt fd).map Socket.kind = some kind ∧ after = before
    | .acceptConn fd, some accepting =>
        (kernel.socketAt fd).map Socket.accepting = some accepting ∧ after = before
    | .peerCred fd, some uid => kernel.peerAt fd = some uid ∧ after = before
    | .accept listener, some fd =>
        (kernel.socketAt listener).map Socket.accepting = some true ∧
          0 ≤ fd ∧ kernel.table fd = none ∧ ∃ uid,
            after = (kernel.install fd (some { peer := uid }),
              { log with opened := log.opened ++ [kernel.next] })
    | .socket, some fd =>
        0 ≤ fd ∧ kernel.table fd = none ∧
          after = (kernel.install fd (some {}), { log with opened := log.opened ++ [kernel.next] })
    | .connect fd _, some uid =>
        after = (kernel.change fd fun socket => { socket with peer := uid },
          { log with reached := log.reached ++ [uid] })
    | .send fd data, sent =>
        (∀ count, sent = some count → count ≤ data.length) ∧
          after = (kernel, { log with sent := log.sent ++ [kernel.peerAt fd] })
    | .socketpair, some (first, second) =>
        0 ≤ first ∧ 0 ≤ second ∧ first ≠ second ∧
          kernel.table first = none ∧ kernel.table second = none ∧ ∃ uid,
            after = ((kernel.install first
                (some { peer := uid, mate := some (kernel.next + 1) })).install second
                  (some { peer := uid, mate := some kernel.next }),
              { log with opened := log.opened ++ [kernel.next, kernel.next + 1] })
    | .sendmsg fd _ payload, true =>
        after = (kernel,
          { log with handed := log.handed ++ [(kernel.table payload, kernel.peerAt fd)] })
    | .close fd, _ =>
        after = (kernel.release fd, { log with closed := log.closed ++ [kernel.table fd] })
    | .fcntlGetfd _, false | .socketType _, none | .acceptConn _, none | .peerCred _, none
    | .accept _, none | .socket, none | .connect _ _, none | .socketpair, none
    | .sendmsg _ _ _, false | .poll _ _, _ | .clock, _ | .read _ _, _ => after = before

/-- A request that the kernel and the log do not notice. -/
def Call.isQuestion : Call → Bool
  | .fcntlGetfd _ | .socketType _ | .acceptConn _ | .peerCred _ | .poll _ _ | .clock
  | .read _ _ => true
  | _ => false

theorem still_of_question {request : Call} (isQuestion : request.isQuestion = true)
    {before after : Kernel × Log} {answer : request.Answer}
    (step : machine.Step before request answer after) : after = before := by
  cases request with
  | fcntlGetfd fd =>
      cases answer with
      | true => exact step.2
      | false => exact step
  | socketType fd | acceptConn fd | peerCred fd =>
      cases answer with
      | some value => exact step.2
      | none => exact step
  | poll fd timeoutMs | clock | read fd count => exact step
  | _ => exact absurd isQuestion Bool.false_ne_true

/-- A part of the program that only asks leaves everything as it is. -/
theorem wp_still {α : Type} {program : Prog Sys α}
    (questions : program.All fun request : Call => request.isQuestion = true)
    (world : Kernel × Log) : program.wp machine (fun _ after => after = world) world := by
  apply Prog.All.wp_still
  apply questions.mono
  intro request isQuestion before answer after step
  exact still_of_question isQuestion step

theorem all_streamSocket (fd : Fd) :
    (streamSocket fd).All fun request : Call => request.isQuestion = true := by
  unfold streamSocket
  split
  · trivial
  · refine ⟨rfl, ?_⟩
    rintro (_ | _)
    · trivial
    · refine ⟨rfl, ?_⟩
      rintro (_ | kind)
      · trivial
      · dsimp only
        change Prog.All _ (if kind ≠ SOCK_STREAM then pure none else perform (.acceptConn fd))
        split
        · trivial
        · exact ⟨rfl, fun _ => trivial⟩

theorem all_readProof (fd : Fd) (deadline : Timespec) (turns : Nat) (proof : List UInt8) :
    (readProof fd deadline turns proof).All fun request : Call => request.isQuestion = true := by
  induction turns generalizing proof with
  | zero => trivial
  | succ turns ih =>
      unfold readProof
      split
      · refine ⟨rfl, fun now => ⟨rfl, ?_⟩⟩
        rintro (_ | _)
        · trivial
        · refine ⟨rfl, ?_⟩
          rintro (_ | bytes)
          · trivial
          · change Prog.All _ (if bytes = [] then pure none else _)
            split
            · trivial
            · exact ih _
      · trivial

theorem wp_isRootPeer (world : Kernel × Log) (fd : Fd) :
    (isRootPeer fd).wp machine (fun isRoot after =>
      after = world ∧ (isRoot = true → world.1.peerAt fd = some 0)) world := by
  rintro (_ | uid) after step
  · exact ⟨step, nofun⟩
  · rcases step with ⟨isPeer, rfl⟩
    refine ⟨rfl, fun isRoot => ?_⟩
    rw [isPeer, of_decide_eq_true isRoot]

theorem wp_channelUsable (world : Kernel × Log) (fd : Fd) :
    (channelUsable fd).wp machine (fun usable after =>
      after = world ∧ (usable = true → world.1.peerAt fd = some 0)) world := by
  unfold channelUsable
  rw [Prog.bind_eq, Prog.wp_bind]
  apply Prog.wp_mono (wp_still (all_streamSocket fd) world)
  rintro (_ | _ | _) after rfl
  · exact ⟨rfl, nofun⟩
  · exact wp_isRootPeer after fd
  · exact ⟨rfl, nofun⟩

theorem wp_listenerUsable (world : Kernel × Log) (fd : Fd) :
    (listenerUsable fd).wp machine (fun _ after => after = world) world := by
  unfold listenerUsable
  rw [Prog.bind_eq, Prog.wp_bind]
  apply Prog.wp_mono (wp_still (all_streamSocket fd) world)
  rintro (_ | accepting) after rfl
  · rfl
  · rfl

end Companion

end Znn.Loader
