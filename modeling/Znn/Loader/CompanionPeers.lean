import Znn.Loader.Companion

/-!
# Who gets the companion's secret

The inherited channel and the accepted one are used only with a peer that is root. The direct
connection is not checked: who listens on the helper's name is sent the token.
-/

namespace Znn.Loader.Companion

open Interaction

/-- The token has gone to root only, and what is returned is connected to root, or its other end
is in the hands of root. -/
structure Secure (result : Fd) (after : Kernel × Log) : Prop where
  token : ∀ peer ∈ after.2.sent, peer = some 0
  returned : 0 ≤ result → ∃ socket, after.1.socketAt result = some socket ∧
    match socket.mate with
    | none => socket.peer = 0
    | some mate => (some mate, some 0) ∈ after.2.handed

/-- Nothing has been sent yet, and the channel's peer is root. -/
structure Prepared (handle : ModuleHandle) (world : Kernel × Log) : Prop where
  sent : world.2.sent = []
  reached : world.2.reached = []
  handed : world.2.handed = []
  channel : 0 ≤ handle.companionChannel → world.1.peerAt handle.companionChannel = some 0

section Checks

variable {handle : ModuleHandle} {world : Kernel × Log}

theorem wp_dropChannel (sent : world.2.sent = []) (reached : world.2.reached = [])
    (handed : world.2.handed = []) :
    StateProg.wp machine dropChannel (fun _ handle' after => Prepared handle' after) handle
      world := by
  unfold dropChannel
  rw [StateProg.wp_bind, StateProg.wp_get]
  split
  · rw [StateProg.wp_bind, StateProg.wp_lift]
    rintro _ after rfl
    have negative : ¬(0 : Int) ≤ -1 := by decide
    exact ⟨sent, reached, handed, fun stored => absurd stored negative⟩
  · rename_i absent
    exact ⟨sent, reached, handed, fun stored => absurd stored absent⟩

theorem wp_checkChannel (sent : world.2.sent = []) (reached : world.2.reached = [])
    (handed : world.2.handed = []) :
    StateProg.wp machine checkChannel (fun _ handle' after => Prepared handle' after) handle
      world := by
  unfold checkChannel
  rw [StateProg.wp_bind, StateProg.wp_get]
  split
  · rw [StateProg.wp_bind, StateProg.wp_lift]
    apply Prog.wp_mono (wp_channelUsable world handle.companionChannel)
    rintro (_ | _) after ⟨rfl, isRoot⟩
    · exact wp_dropChannel sent reached handed
    · exact ⟨sent, reached, handed, fun _ => isRoot rfl⟩
  · rename_i absent
    exact ⟨sent, reached, handed, fun stored => absurd stored absent⟩

theorem wp_checkListener (prepared : Prepared handle world) :
    StateProg.wp machine checkListener (fun _ handle' after => Prepared handle' after) handle
      world := by
  unfold checkListener
  rw [StateProg.wp_bind, StateProg.wp_get]
  split
  · rw [StateProg.wp_bind, StateProg.wp_lift]
    apply Prog.wp_mono (wp_listenerUsable world handle.companionListenFd)
    rintro (_ | _) after rfl
    · rw [Bool.not_false, if_pos rfl, StateProg.wp_bind, StateProg.wp_lift]
      rintro _ closed rfl
      refine ⟨prepared.sent, prepared.reached, prepared.handed, fun stored => ?_⟩
      have apart : handle.companionChannel ≠ handle.companionListenFd := handle.apart stored
      change Option.map _ (Kernel.socketAt _ handle.companionChannel) = _
      rw [Kernel.socketAt_release_of_ne apart]
      exact prepared.channel stored
    · exact prepared
  · exact prepared

/-- The log of what matters here, apart from what is opened and closed. -/
def SameLog (log log' : Log) : Prop :=
  log'.sent = log.sent ∧ log'.reached = log.reached ∧ log'.handed = log.handed

/-- A connection that is admitted is one of root. -/
theorem wp_admitPeer (world : Kernel × Log) (fd : Fd) (nonce : UInt32) :
    (admitPeer fd nonce).wp machine (fun admitted after => SameLog world.2 after.2 ∧
      (0 ≤ admitted → admitted = fd ∧ after.1.peerAt fd = some 0)) world := by
  have closed : ((perform (.close fd)).bind fun _ => Prog.pure (-1 : Fd)).wp machine
      (fun admitted after => SameLog world.2 after.2 ∧
        (0 ≤ admitted → admitted = fd ∧ after.1.peerAt fd = some 0)) world := by
    rintro _ _ rfl
    exact ⟨⟨rfl, rfl, rfl⟩, fun stored => absurd stored (by decide)⟩
  unfold admitPeer
  rw [Prog.bind_eq, Prog.wp_bind]
  apply Prog.wp_mono (wp_isRootPeer world fd)
  rintro (_ | _) after ⟨same, isRoot⟩
  · subst after
    exact closed
  · subst after
    rw [Bool.not_true, if_neg Bool.false_ne_true, Prog.bind_eq, Prog.wp_bind]
    intro start asked step
    have same : asked = world := step
    subst asked
    rw [Prog.wp_pure, Prog.bind_eq, Prog.wp_bind]
    apply Prog.wp_mono (wp_still (all_readProof fd _ _ _) world)
    rintro (_ | proof) after same
    · subst after
      exact closed
    · subst after
      change Prog.wp _ (if proof ≠ _ then _ else pure fd) _ _
      split
      · exact closed
      · exact ⟨⟨rfl, rfl, rfl⟩, fun _ => ⟨rfl, isRoot rfl⟩⟩

/-- What is accepted is connected to root, and is not the listener. -/
theorem wp_acceptChannel (world : Kernel × Log) (listenFd : Fd) (nonce : UInt32)
    (timeoutMs : Int) :
    (acceptChannel listenFd nonce timeoutMs).wp machine (fun fd after =>
      SameLog world.2 after.2 ∧
        (0 ≤ fd → after.1.peerAt fd = some 0 ∧ fd ≠ listenFd)) world := by
  have nothing : SameLog world.2 world.2 ∧
      ((0 : Int) ≤ -1 → world.1.peerAt (-1) = some 0 ∧ (-1 : Int) ≠ listenFd) :=
    ⟨⟨rfl, rfl, rfl⟩, fun stored => absurd stored (by decide)⟩
  unfold acceptChannel
  split
  · exact nothing
  · intro ready polled step
    have same : polled = world := step
    subst polled
    cases ready with
    | false => exact nothing
    | true =>
        rintro (_ | fd) accepted step
        · have same : accepted = world := step
          subst accepted
          exact nothing
        · rcases step with ⟨accepting, _, free, uid, rfl⟩
          apply Prog.wp_mono (wp_admitPeer _ fd nonce)
          rintro admitted after ⟨same, isRoot⟩
          refine ⟨same, fun stored => ?_⟩
          rcases isRoot stored with ⟨rfl, peer⟩
          refine ⟨peer, ?_⟩
          rintro rfl
          rw [Kernel.socketAt, free] at accepting
          cases accepting

theorem wp_acceptOnce (prepared : Prepared handle world) :
    StateProg.wp machine acceptOnce (fun _ handle' after => Prepared handle' after) handle
      world := by
  unfold acceptOnce
  rw [StateProg.wp_bind, StateProg.wp_get]
  split
  · rw [StateProg.wp_bind, StateProg.wp_lift]
    apply Prog.wp_mono (wp_acceptChannel world _ _ _)
    rintro fd accepted ⟨⟨sent, reached, handed⟩, isRoot⟩
    rw [StateProg.wp_bind, StateProg.wp_lift]
    rintro _ closed rfl
    refine ⟨sent.trans prepared.sent, reached.trans prepared.reached,
      handed.trans prepared.handed, fun stored => ?_⟩
    rcases isRoot stored with ⟨peer, apart⟩
    change Option.map _ (Kernel.socketAt _ fd) = _
    rw [Kernel.socketAt_release_of_ne apart]
    exact peer
  · exact prepared

/-- The token is sent on the connection, whole or in part. -/
theorem wp_sendToken {uid : Uid} (world : Kernel × Log) (fd : Fd)
    (peer : world.1.peerAt fd = some uid) (turns : Nat) (data : List UInt8) :
    (sendToken fd turns data).wp machine (fun _ after =>
      after.1 = world.1 ∧ after.2.reached = world.2.reached ∧ after.2.handed = world.2.handed ∧
        ∃ peers, after.2.sent = world.2.sent ++ peers ∧ (∀ other ∈ peers, other = some uid) ∧
          (0 < turns → data ≠ [] → peers ≠ [])) world := by
  induction turns generalizing world data with
  | zero =>
      cases data with
      | nil => exact ⟨rfl, rfl, rfl, [], (List.append_nil _).symm, nofun, nofun⟩
      | cons byte rest => exact ⟨rfl, rfl, rfl, [], (List.append_nil _).symm, nofun, nofun⟩
  | succ turns ih =>
      cases data with
      | nil =>
          exact ⟨rfl, rfl, rfl, [], (List.append_nil _).symm, nofun, fun _ full => absurd rfl full⟩
      | cons byte rest =>
          rintro sent after ⟨_, rfl⟩
          have one : ∀ other ∈ [world.1.peerAt fd], other = some uid := by
            intro other member
            rw [List.mem_singleton.mp member, peer]
          rcases sent with _ | count
          · exact ⟨rfl, rfl, rfl, _, rfl, one, fun _ _ => List.cons_ne_nil _ _⟩
          · change Prog.wp _ (if count = 0 then pure false else sendToken fd turns _) _ _
            split
            · exact ⟨rfl, rfl, rfl, _, rfl, one, fun _ _ => List.cons_ne_nil _ _⟩
            · let next : Log := { world.2 with sent := world.2.sent ++ [world.1.peerAt fd] }
              apply Prog.wp_mono (ih (world.1, next) peer _)
              rintro whole later ⟨kernel, reached, handed, peers, sent, all, _⟩
              refine ⟨kernel, reached, handed, world.1.peerAt fd :: peers, ?_, ?_, ?_⟩
              · rw [sent, List.append_assoc]
                rfl
              · intro other member
                rcases List.mem_cons.mp member with rfl | later
                · exact peer
                · exact all other later
              · exact fun _ _ => List.cons_ne_nil _ _

/-- The direct connection is as good as whom it reaches. -/
theorem wp_connectDirect (handle : ModuleHandle) (sent : world.2.sent = [])
    (reached : world.2.reached = []) :
    (connectDirect handle).wp machine (fun result after =>
      Secure result after ↔ ∀ uid ∈ after.2.reached, uid = 0) world := by
  have none : ∀ after : Kernel × Log, after.2.sent = [] → after.2.reached = [] →
      (Secure (-1) after ↔ ∀ uid ∈ after.2.reached, uid = 0) := by
    intro after sent reached
    constructor
    · intro _ uid member
      rw [reached] at member
      cases member
    · intro _
      refine ⟨?_, fun stored => absurd stored (by decide)⟩
      intro peer member
      rw [sent] at member
      cases member
  rintro (_ | fd) opened step
  · have same : opened = world := step
    subst opened
    exact none world sent reached
  · rcases step with ⟨_, _, rfl⟩
    rintro (_ | uid) connected step
    · cases step
      rintro _ _ rfl
      exact none _ sent reached
    · cases step
      change Prog.wp _ ((sendToken fd _ _).bind _) _ _
      rw [Prog.wp_bind]
      have peer : Kernel.peerAt ((world.1.install fd (some {})).change fd
          fun socket => { socket with peer := uid }) fd = some uid := by
        rw [Kernel.peerAt, Kernel.socketAt_change_self, Kernel.socketAt_install_self]
        rfl
      apply Prog.wp_mono (wp_sendToken _ fd peer _ _)
      rintro whole after ⟨kernel, reachedAfter, _, peers, sentAfter, all, some⟩
      have isSent : after.2.sent = peers := by
        rw [sentAfter, sent, List.nil_append]
      have isReached : after.2.reached = [uid] := by
        rw [reachedAfter]
        change world.2.reached ++ [uid] = _
        rw [reached, List.nil_append]
      have isAny : peers ≠ [] := by
        apply some (by decide)
        intro empty
        have length := congrArg List.length empty
        rw [Vector.length_toList] at length
        cases length
      have token : (∀ peer ∈ after.2.sent, peer = Option.some 0) ↔ uid = 0 := by
        rw [isSent]
        constructor
        · intro root
          rcases List.exists_mem_of_ne_nil _ isAny with ⟨peer, member⟩
          exact Option.some.inj ((all peer member).symm.trans (root peer member))
        · rintro rfl
          exact all
      have isRoot : (∀ other ∈ after.2.reached, other = 0) ↔ uid = 0 := by
        rw [isReached, List.forall_mem_singleton]
      cases whole with
      | false =>
          rintro _ _ rfl
          refine Iff.trans ?_ isRoot.symm
          refine Iff.trans ?_ token
          exact ⟨Secure.token, fun root => ⟨root, fun stored => absurd stored (by decide)⟩⟩
      | true =>
          refine Iff.trans ?_ isRoot.symm
          constructor
          · exact fun secure => token.mp secure.token
          · intro root
            refine ⟨token.mpr root, fun _ => ⟨{ peer := uid }, ?_, root⟩⟩
            rw [kernel, Kernel.socketAt_change_self, Kernel.socketAt_install_self]
            rfl

/-- One end of a pair goes over the channel, to root. -/
theorem wp_offerPair {channel : Fd} (sent : world.2.sent = []) (reached : world.2.reached = [])
    (handed : world.2.handed = []) (peer : world.1.peerAt channel = some 0) :
    (offerPair channel).wp machine (fun offered after =>
      after.2.sent = [] ∧ after.2.reached = [] ∧
        match offered with
        | some fd => Secure fd after
        | none => after.2.handed = []) world := by
  rintro (_ | ⟨first, second⟩) paired step
  · have same : paired = world := step
    subst paired
    exact ⟨sent, reached, handed⟩
  · rcases step with ⟨_, _, apart, freeFirst, freeSecond, uid, rfl⟩
    have taken : ∀ fd, world.1.table fd = none → channel ≠ fd := by
      rintro fd free rfl
      rw [Kernel.peerAt, Kernel.socketAt, free] at peer
      cases peer
    rintro (_ | _) offered step
    · cases step
      rintro _ _ rfl _ _ rfl
      exact ⟨sent, reached, handed⟩
    · cases step
      rintro _ _ rfl
      refine ⟨sent, reached, ?_, ?_⟩
      · intro other member
        change other ∈ world.2.sent at member
        rw [sent] at member
        cases member
      · intro _
        refine ⟨{ peer := uid, mate := some (world.1.next + 1) }, ?_, ?_⟩
        · rw [Kernel.socketAt_release_of_ne apart, Kernel.socketAt_install_of_ne apart,
            Kernel.socketAt_install_self]
        · have isPeer : Kernel.peerAt ((world.1.install first
              (some { peer := uid, mate := some (world.1.next + 1) })).install second
                (some { peer := uid, mate := some world.1.next })) channel = some 0 := by
            rw [Kernel.peerAt, Kernel.socketAt_install_of_ne (taken second freeSecond),
              Kernel.socketAt_install_of_ne (taken first freeFirst)]
            exact peer
          have isMate : Kernel.table ((world.1.install first
              (some { peer := uid, mate := some (world.1.next + 1) })).install second
                (some { peer := uid, mate := some world.1.next })) second =
              some (world.1.next + 1) :=
            Function.update_self _ _ _
          change (some (world.1.next + 1), some (0 : Uid)) ∈ world.2.handed ++ [(_, _)]
          rw [isPeer, isMate]
          exact List.mem_append_right _ List.mem_cons_self

theorem wp_reach (prepared : Prepared handle world) :
    StateProg.wp machine reach (fun result _ after =>
      Secure result after ↔ ∀ uid ∈ after.2.reached, uid = 0) handle world := by
  unfold reach
  rw [StateProg.wp_bind, StateProg.wp_get]
  split
  case isTrue stored =>
    rw [StateProg.wp_bind, StateProg.wp_lift]
    apply Prog.wp_mono (wp_offerPair prepared.sent prepared.reached prepared.handed
      (prepared.channel stored))
    rintro (_ | fd) after ⟨sent, reached, rest⟩
    · rw [StateProg.wp_bind]
      apply StateProg.wp_mono (wp_dropChannel sent reached rest)
      intro _ handle' dropped prepared'
      rw [StateProg.wp_lift]
      exact wp_connectDirect handle prepared'.sent prepared'.reached
    · refine ⟨fun _ uid member => ?_, fun _ => rest⟩
      rw [reached] at member
      cases member
  case isFalse =>
    rw [StateProg.wp_lift]
    exact wp_connectDirect handle prepared.sent prepared.reached

end Checks

/-- The secret is kept in every run. -/
def AlwaysSecure : Prop :=
  ∀ (handle handle' : ModuleHandle) (kernel : Kernel) (result : Fd) (after : Kernel × Log),
    StateProg.Runs machine connectCompanion handle (kernel, {}) result handle' after →
      Secure result after

/-- A handle without any connection. -/
def fresh : ModuleHandle :=
  ⟨true, 1, 2, Vector.replicate 16 7, -1, -1, fun stored => absurd stored (by decide)⟩

def emptyKernel : Kernel :=
  ⟨fun _ => none, fun _ => none, 0, nofun, nofun⟩

/-- A kernel that gives out one number, where a process of the user listens. -/
def listening (uid : Uid) (request : Call) (world : Kernel × Log) :
    request.Answer × (Kernel × Log) :=
  match request with
  | .fcntlGetfd _ | .poll _ _ | .sendmsg _ _ _ => (false, world)
  | .socketType _ | .acceptConn _ | .peerCred _ | .accept _ | .read _ _ | .socketpair =>
      (none, world)
  | .clock => (⟨0, 0⟩, world)
  | .socket =>
      if world.1.table 3 = none then
        (some 3, (world.1.install 3 (some {}),
          { world.2 with opened := world.2.opened ++ [world.1.next] }))
      else
        (none, world)
  | .connect fd _ =>
      (some uid, (world.1.change fd fun socket => { socket with peer := uid },
        { world.2 with reached := world.2.reached ++ [uid] }))
  | .send fd data =>
      (some data.length, (world.1, { world.2 with sent := world.2.sent ++ [world.1.peerAt fd] }))
  | .close fd =>
      ((), (world.1.release fd, { world.2 with closed := world.2.closed ++ [world.1.table fd] }))

theorem sound_listening (uid : Uid) (request : Call) (world : Kernel × Log) :
    machine.Step world request (listening uid request world).1 (listening uid request world).2 := by
  cases request with
  | socket =>
      unfold listening
      dsimp only
      split
      case isTrue free => exact ⟨by decide, free, rfl⟩
      case isFalse => rfl
  | send fd data =>
      refine ⟨?_, rfl⟩
      rintro count ⟨⟩
      exact Nat.le_refl _
  | _ => rfl

/-- The call of a module whose helper's name is taken by the user. -/
def called (uid : Uid) : (Fd × ModuleHandle) × (Kernel × Log) :=
  (connectCompanion.run fresh).eval (listening uid) (emptyKernel, {})

theorem runs_called (uid : Uid) :
    StateProg.Runs machine connectCompanion fresh (emptyKernel, {}) (called uid).1.1
      (called uid).1.2 (called uid).2 :=
  Prog.runs_eval (sound_listening uid) _ _

/-- The token is sent to an application that listens on the helper's name. -/
theorem token_sent_to_application : ¬AlwaysSecure := by
  intro always
  have secure := always _ _ _ _ _ (runs_called 10000)
  have sent : (called 10000).2.2.sent = [some 10000] := rfl
  have root := secure.token (some 10000) (sent ▸ List.mem_cons_self)
  exact absurd root (by decide)

/-- The companion's token and its sockets reach root only exactly if whoever is reached by a direct
connection is root. -/
theorem secure_iff {handle handle' : ModuleHandle} {kernel : Kernel} {result : Fd}
    {after : Kernel × Log}
    (run : StateProg.Runs machine connectCompanion handle (kernel, {}) result handle' after) :
    Secure result after ↔ ∀ uid ∈ after.2.reached, uid = 0 := by
  apply run.of_wp
  unfold connectCompanion
  rw [StateProg.wp_bind, StateProg.wp_get]
  split
  · constructor
    · exact fun _ => nofun
    · have negative : ¬(0 : Int) ≤ -1 := by decide
      exact fun _ => ⟨nofun, fun stored => absurd stored negative⟩
  · rw [StateProg.wp_bind]
    apply StateProg.wp_mono (wp_checkChannel rfl rfl rfl)
    intro _ handle first prepared
    rw [StateProg.wp_bind]
    apply StateProg.wp_mono (wp_checkListener prepared)
    intro _ handle second prepared
    rw [StateProg.wp_bind]
    apply StateProg.wp_mono (wp_acceptOnce prepared)
    intro _ handle third prepared
    exact wp_reach prepared

/-- A direct connection to the helper. -/
theorem secure_called : Secure (called 0).1.1 (called 0).2 := by
  apply (secure_iff (runs_called 0)).mpr
  have reached : (called 0).2.2.reached = [0] := rfl
  rw [reached]
  simp

end Znn.Loader.Companion
