import Znn.Interaction.Reach
import Znn.Interaction.Semantics
import Znn.Loader.ChannelNames

/-!
# The helper of a companion

`run_helper` loads the library of a companion, listens for direct connections and connects to the
channel of the module. From then on it serves both: a descriptor that comes over the channel and a
direct connection that proves itself are handed over to the library. The loop does not end by
itself; each of its turns is a program, and so is each turn of the loops inside of it.
-/

namespace Znn.Injector.Companion

open Interaction Bytes

abbrev Fd : Type := Int

def CONNECT : UInt8 := 1
def CONNECT_TIMEOUT_MS : Nat := 5000

inductive Polled where
  | ready (readable : List Bool)
  | interrupted
  | failed

/-- What `recvmsg` has read: how many bytes, the first of them, and the descriptors. -/
structure Message where
  bytes : Nat
  command : UInt8
  descriptors : List Fd
  truncated : Bool
deriving DecidableEq

/-- `cmsgs`: the descriptors, unless the control data was truncated. -/
def Message.cmsgs (message : Message) : Option (List Fd) :=
  if message.truncated then none else some message.descriptors

inductive Accepted where
  | stream (fd : Fd)
  | wouldBlock
  | failed

/-- The requests of a helper. Interrupted reads are made again: the answer is that of the last. -/
inductive Call where
  | dlopen (library : String)
  | readFile (path : String)
  | memfdCreate
  | writeAll (fd : Fd) (contents : List UInt8)
  | openFromFd (library : String) (fd : Fd)
  | companion
  | bind (address : List UInt8)
  | setNonblocking (fd : Fd)
  | notifyLoaded
  | now
  | connect (address : List UInt8)
  | sleep
  | poll (fds : List Fd)
  | recvmsg (fd : Fd)
  | accept (listener : Fd)
  | readExact (fd : Fd) (count : Nat)
  | notifyConnected (fd : Fd)
  | close (fd : Fd)
  | exit (code : Int)

abbrev Call.Answer : Call → Type
  | .dlopen _ | .writeAll _ _ | .openFromFd _ _ | .companion | .setNonblocking _ => Bool
  | .readFile _ | .readExact _ _ => Option (List UInt8)
  | .memfdCreate | .bind _ | .connect _ => Option Fd
  | .now => Nat
  | .poll _ => Polled
  | .recvmsg _ => Option Message
  | .accept _ => Accepted
  | .notifyLoaded | .sleep | .notifyConnected _ | .close _ | .exit _ => Unit

abbrev Sys : Interface where
  Call := Call
  Answer := Call.Answer

abbrev perform (request : Call) : Prog Sys request.Answer :=
  Prog.perform (I := Sys) request

/-- Where a helper is, with its sockets: in the loop of `connect_channel`, in its own or in that of
`accept_direct`. -/
inductive State where
  | connecting (deadline : Nat) (direct : Option Fd)
  | polling (channel direct : Option Fd)
  | accepting (channel : Option Fd) (listener : Fd)
deriving DecidableEq

def State.channel : State → Option Fd
  | .connecting _ _ => none
  | .polling channel _ | .accepting channel _ => channel

def State.direct : State → Option Fd
  | .connecting _ direct | .polling _ direct => direct
  | .accepting _ listener => some listener

section Program

variable (library : String) (nonce index : UInt32) (token : Vector UInt8 16)

def memfdFromFile (path : String) : Prog Sys (Option Fd) := do
  let some contents ← perform (.readFile path)
    | return none
  let some descriptor ← perform .memfdCreate
    | return none
  if !(← perform (.writeAll descriptor contents)) then
    perform (.close descriptor)
    return none
  return some descriptor

def openModule : Prog Sys Bool := do
  if ← perform (.dlopen library) then
    return true
  let some descriptor ← memfdFromFile library
    | return false
  perform (.openFromFd library descriptor)

def bindDirect : Prog Sys (Option Fd) := do
  let some address := fromAbstractName (asBytes (directChannelName nonce index))
    | return none
  let some listener ← perform (.bind address)
    | return none
  if !(← perform (.setNonblocking listener)) then
    perform (.close listener)
    return none
  return some listener

def exitNow (code : Int) : Prog Sys (Option State) := do
  perform (.exit code)
  return none

/-- What `run_helper` does when `connect_channel` has returned. -/
def sendNonce (direct : Option Fd) : Option Fd → Prog Sys (Option State)
  | some stream => do
      if ← perform (.writeAll stream (little 4 nonce.toNat)) then
        return some (.polling (some stream) direct)
      perform (.close stream)
      return some (.polling none direct)
  | none =>
      if direct = none then
        exitNow 1
      else
        return some (.polling none direct)

/-- `run_helper` up to the loop of `connect_channel`. -/
def start : Prog Sys (Option State) := do
  if !(← openModule library) then
    return ← exitNow 1
  if !(← perform .companion) then
    return ← exitNow 1
  let direct ← bindDirect nonce index
  perform .notifyLoaded
  let now ← perform .now
  return some (.connecting (now + CONNECT_TIMEOUT_MS) direct)

/-- A turn of the loop of `connect_channel`. -/
def connectTurn (deadline : Nat) (direct : Option Fd) : Prog Sys (Option State) := do
  let some address := fromAbstractName (asBytes (channelName nonce index))
    | sendNonce nonce direct none
  let some stream ← perform (.connect address)
    | do
      if deadline ≤ (← perform .now) then
        return ← sendNonce nonce direct none
      perform .sleep
      return some (.connecting deadline direct)
  sendNonce nonce direct (some stream)

def closeAll : List Fd → Prog Sys Unit
  | [] => return ()
  | fd :: rest => do
      perform (.close fd)
      closeAll rest

/-- `recv_with_fd`. -/
def recvWithFd (socket : Fd) : Prog Sys (Option (Nat × UInt8 × Option Fd)) := do
  let some message ← perform (.recvmsg socket)
    | return none
  let some descriptors := message.cmsgs
    | return none
  if message.truncated then
    closeAll descriptors
    return none
  closeAll (descriptors.drop 1)
  return some (message.bytes, message.command, descriptors.head?)

/-- What is done when the channel is readable: the channel that is left. -/
def control (channel : Fd) : Prog Sys (Option Fd) := do
  let some (bytes, command, descriptor) ← recvWithFd channel
    | do
      perform (.close channel)
      return none
  if bytes = 0 then
    closeAll descriptor.toList
    perform (.close channel)
    return none
  match descriptor with
  | some descriptor =>
      if command = CONNECT then
        perform (.notifyConnected descriptor)
      else
        perform (.close descriptor)
      return some channel
  | none => return some channel

/-- The end of a turn: without a socket the helper ends. -/
def endTurn (channel direct : Option Fd) : Prog Sys (Option State) :=
  if channel = none ∧ direct = none then
    exitNow 0
  else
    return some (.polling channel direct)

/-- The turn after the channel, when the descriptors of `readable` are ready. The listener is the
last of them. -/
def directTurn (readable : List Bool) (channel direct : Option Fd) : Prog Sys (Option State) :=
  let directReady := readable.getLast? = some true
  match direct with
  | some listener =>
      if directReady then
        return some (.accepting channel listener)
      else
        endTurn channel direct
  | none => endTurn channel direct

/-- A turn of the loop of `run_helper`, up to the loop of `accept_direct`. The channel is the first
of the descriptors that are polled. -/
def pollTurn (channel direct : Option Fd) : Prog Sys (Option State) := do
  match ← perform (.poll (channel.toList ++ direct.toList)) with
  | .failed => exitNow 1
  | .interrupted => return some (.polling channel direct)
  | .ready readable =>
      let controlReady := readable.head? = some true
      let channel ←
        match channel with
        | some stream => if controlReady then control stream else pure channel
        | none => pure channel
      directTurn readable channel direct

/-- A turn of the loop of `accept_direct`. -/
def acceptTurn (channel : Option Fd) (listener : Fd) : Prog Sys (Option State) := do
  let .stream stream ← perform (.accept listener)
    | endTurn channel (some listener)
  let some proof ← perform (.readExact stream 16)
    | do
      perform (.close stream)
      return some (.accepting channel listener)
  if proof ≠ token.toList then
    perform (.close stream)
    return some (.accepting channel listener)
  perform (.notifyConnected stream)
  return some (.accepting channel listener)

def turn : State → Prog Sys (Option State)
  | .connecting deadline direct => connectTurn nonce index deadline direct
  | .polling channel direct => pollTurn channel direct
  | .accepting channel listener => acceptTurn token channel listener

end Program

end Znn.Injector.Companion
