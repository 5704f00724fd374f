import Telehash.Introduction

/-!
The relay of an identity that is reached over others, THRelay.m. It has a channel on every via
it was attached to, and sends on one of them, which it holds weakly: the channel belongs to the
table of its via. The setter of an unreliable channel tells no delegate, so the relay hears of
errors only. What the switch does with a relayed packet, other than sending on this relay again,
and the path a bridge adds are left out.
-/

namespace Telehash.ViaRelay
open Association Foundation Packet PacketCodec Identity Channel UnreliableChannel LineDispatch Runs
open SeeStrings RelayPath
open Introduction (Asking peerPacket)
open UnreliableQueue (addressed)

/-- A channel the relay is the delegate of. -/
structure ViaChannel where
  toIdentity : IdentityRef
  -- whether the channel has its id
  numbered : Bool
  lastInActivity : Nat
  channel : THUnreliableChannel

def ViaChannel.initToIdentity (toIdentity : IdentityRef) : ViaChannel where
  toIdentity := toIdentity
  numbered := false
  lastInActivity := 0
  channel :=
    { UnreliableChannel.initToIdentity 0 .application with
      type := some (.string "peer")
      registered := false }

structure THRelay where
  asking : Asking
  peerChannel : Option ChannelRef
  relayIdentity : Option IdentityRef
  channels : ChannelRef → ViaChannel
  nextChannel : ChannelRef
  -- of the current line of each identity, its `nextChannelId`
  lines : IdentityRef → Option Nat
  -- the channels with a pending job
  pendingJobs : List ChannelRef
  -- the peer packets, with the via each was sent to
  requests : List (IdentityRef × THPacket)
  -- what the relay was given to send, and what it gave the switch
  asked : List THPacket
  handed : List THPacket

namespace THRelay

def registered (relay : THRelay) (ref : ChannelRef) : Bool :=
  (relay.channels ref).channel.registered

def updateChannel (relay : THRelay) (ref : ChannelRef) (change : ViaChannel → ViaChannel) :
    THRelay :=
  { relay with channels := Function.update relay.channels ref (change (relay.channels ref)) }

@[simp] theorem channels_updateChannel_same (relay : THRelay) (ref : ChannelRef)
    (change : ViaChannel → ViaChannel) :
    (relay.updateChannel ref change).channels ref = change (relay.channels ref) :=
  Function.update_self _ _ _

theorem channels_updateChannel_other (relay : THRelay) {ref one : ChannelRef}
    (change : ViaChannel → ViaChannel) (different : one ≠ ref) :
    (relay.updateChannel ref change).channels one = relay.channels one :=
  Function.update_of_ne different _ _

/-- A channel that no table holds is gone, and the relay with nothing in its place. -/
def weak (relay : THRelay) : THRelay :=
  { relay with peerChannel := relay.peerChannel.filter relay.registered }

/-- `lastInActivity` of the channel the relay sends on, if there is one. -/
def peerActivity (relay : THRelay) : Nat :=
  match relay.peerChannel with
  | none => 0
  | some ref => (relay.channels ref).lastInActivity

end THRelay

/-! ## Attaching a via -/

/-- Another channel of the identity under the id leaves the table. -/
def displaced (toIdentity : IdentityRef) (channelId : Nat) (held : ViaChannel) : ViaChannel :=
  if held.toIdentity = toIdentity ∧ held.numbered ∧ held.channel.channelId = channelId then
    { held with channel := held.channel.deregister }
  else held

/-- `channel:line:firstPacket:` for a channel without an id, and without a packet. -/
def channelLine (relay : THRelay) (ref : ChannelRef) (nextChannelId : Nat) : THRelay :=
  let held := relay.channels ref
  let channelId := (nextChannelId + 2) % uintModulus
  let opened := { held.channel with channelId := channelId, registered := true }.setState .opened
  THRelay.weak
    { relay with
      channels := Function.update (fun other => displaced held.toIdentity channelId
        (relay.channels other)) ref { held with numbered := true, channel := opened }
      lines := Function.update relay.lines held.toIdentity (some channelId) }

def openChannel (relay : THRelay) (ref : ChannelRef) : THRelay :=
  match relay.lines (relay.channels ref).toIdentity with
  | none => { relay with pendingJobs := relay.pendingJobs ++ [ref] }
  | some nextChannelId => channelLine relay ref nextChannelId

section Source
variable (serialization : NSJSONSerialization) (stack : StackBytes) (order : ByteOrder)

/-- A channel that waits for a line has no id, and the via is not asked. -/
def attachVia (relay : THRelay) (viaIdentity : IdentityRef) : Except Fault THRelay :=
  let ref := relay.nextChannel
  let opened := openChannel
    { relay.updateChannel ref fun _ => .initToIdentity viaIdentity with nextChannel := ref + 1 } ref
  match opened.lines viaIdentity with
  | some nextChannelId =>
      if (opened.channels ref).numbered then do
        let drawn := (nextChannelId + 2) % uintModulus
        let drawing := { opened with
          lines := Function.update opened.lines viaIdentity (some drawn) }
        match ← peerPacket order relay.asking drawn (opened.channels ref).channel.channelId with
        | none => return drawing
        | some packet =>
            return { drawing with
              relayIdentity := some viaIdentity
              peerChannel := some ref
              requests := drawing.requests ++ [(viaIdentity, packet)] }
      else .ok opened
  | none => .ok opened

/-- A relay without its channel first attaches the identity it was last relayed by. -/
def sendPacket (now : Nat) (relay : THRelay) (packet : THPacket) : Except Fault THRelay := do
  let asking := { relay with asked := relay.asked ++ [packet] }
  let reached ← match asking.peerChannel, asking.relayIdentity with
    | none, some viaIdentity => attachVia order asking viaIdentity
    | _, _ => .ok asking
  match reached.peerChannel with
  | none => return reached
  | some ref => return reached.updateChannel ref fun held =>
      { held with channel := relaySendPacket serialization now packet held.channel }

/-! ## Packets on the channels of the relay -/

/-- `channel:handlePacket:` of the relay. `sends` is what the switch sends on the relay as it
handles the relayed packet. -/
def relayHandle (relay : THRelay) (now : Nat) (ref : ChannelRef) (packet : THPacket)
    (sends : List THPacket) : Except Fault THRelay := do
  match ← relayHandlePacket serialization stack packet with
  | none => return relay
  | some relayed =>
      let taken :=
        if relay.peerActivity = 0 then
          { relay with
            peerChannel := some ref
            relayIdentity := some (relay.channels ref).toIdentity }
        else relay
      sends.foldlM (sendPacket serialization order now)
        { taken with handed := taken.handed ++ [relayed.packet] }

/-- The channel's own part in a packet, up to the delegate. -/
def heard (now : Nat) (packet : THPacket) (held : ViaChannel) : ViaChannel :=
  let reopened := if opensAgain packet then held.channel.setState .opened else held.channel
  { held with
    lastInActivity := now
    channel := (reopened.superHandlePacket .none now packet).adoptType packet }

def ended (now : Nat) (packet : THPacket) (held : ViaChannel) : ViaChannel :=
  if held.channel.state ≠ .ended ∧ isEnd packet then
    { held with channel := (held.channel.setState .ended).close now }
  else held

/-- `channel:didFailWithError:` of the relay. -/
def didFail (relay : THRelay) (ref : ChannelRef) (packet : THPacket) : THRelay :=
  if (packet.objectForKey "err").isSome ∧ relay.peerChannel = some ref then
    { relay with peerChannel := none }
  else relay

/-- A packet that the line of a via gives to a channel of its table. -/
def handlePacket (relay : THRelay) (now : Nat) (ref : ChannelRef) (packet : THPacket)
    (sends : List THPacket) : Except Fault THRelay :=
  if relay.registered ref then do
    let failed := (didFail relay ref packet).updateChannel ref (heard now packet)
    let relayed ←
      if (failed.channels ref).channel.state = .opening then .ok failed
      else relayHandle serialization stack order failed now ref packet sends
    return (relayed.updateChannel ref (ended now packet)).weak
  else .ok relay

/-! ## The life of a relay -/

inductive Event where
  | sendPacket (now : Nat) (packet : THPacket)
  | handlePacket (now : Nat) (ref : ChannelRef) (packet : THPacket) (sends : List THPacket)
  -- the pending job of a channel is run with a line of its identity
  | release (index : Nat) (nextChannelId : Nat)
  -- lines come and go; paths, keys and suggestions change
  | setLine (identity : IdentityRef) (nextChannelId : Option Nat)
  | setAsking (asking : Asking)
  -- another channel takes the id of this one, or all channels of its identity are closed
  | leaves (ref : ChannelRef)

def perform (relay : THRelay) : Event → Except Fault THRelay
  | .sendPacket now packet => sendPacket serialization order now relay packet
  | .handlePacket now ref packet sends =>
      handlePacket serialization stack order relay now ref packet sends
  | .release index nextChannelId =>
      match relay.pendingJobs[index]? with
      | none => .ok relay
      | some ref => .ok (channelLine { relay with pendingJobs := relay.pendingJobs.eraseIdx index }
          ref nextChannelId)
  | .setLine identity nextChannelId =>
      .ok { relay with lines := Function.update relay.lines identity nextChannelId }
  | .setAsking asking => .ok { relay with asking := asking }
  | .leaves ref => .ok (relay.updateChannel ref fun held =>
      { held with channel := held.channel.deregister }).weak

/-- A call that raises ends the program where it was. -/
def step (relay : THRelay) (event : Event) : THRelay :=
  (perform serialization stack order relay event).toOption.getD relay

/-- A relay as `openLine:` makes it, without a channel. -/
def new (asking : Asking) (lines : IdentityRef → Option Nat) : THRelay where
  asking := asking
  peerChannel := none
  relayIdentity := none
  channels := fun _ => .initToIdentity 0
  nextChannel := 0
  lines := lines
  pendingJobs := []
  requests := []
  asked := []
  handed := []

/-- The loop of `openLine:` over the vias that have a line. The identity keeps the relay if it
has a channel then. -/
def attachVias (relay : THRelay) (vias : List IdentityRef) : Except Fault THRelay :=
  (vias.filter fun via => (relay.lines via).isSome).foldlM (attachVia order) relay

/-- The relay of a connect from an identity with a current line: its channel is opened on that
line, with the id of the connect or, if that is 0, with one of the line. Without a current line
the channel would wait for one; such a relay is left out. -/
def connected (asking : Asking) (lines : IdentityRef → Option Nat) (toIdentity : IdentityRef)
    (channelId : Nat) : THRelay :=
  let opened := { UnreliableChannel.initToIdentity channelId .application with
    type := some (.string "connect") }.setState .opened
  { new asking lines with
    peerChannel := some 0
    relayIdentity := some toIdentity
    channels := Function.update (fun _ => .initToIdentity 0) 0 ⟨toIdentity, true, 0, opened⟩
    nextChannel := 1 }

/-- The two ways an identity comes to have a relay. -/
inductive Begun : THRelay → Prop where
  | attached (asking : Asking) (lines : IdentityRef → Option Nat) (vias : List IdentityRef)
      (relay : THRelay) (attaching : attachVias order (new asking lines) vias = .ok relay)
      (kept : relay.peerChannel.isSome) : Begun relay
  | connected (asking : Asking) (lines : IdentityRef → Option Nat) (toIdentity : IdentityRef)
      (channelId : Nat) : Begun (connected asking lines toIdentity channelId)

end Source

/-! ## One channel -/

/-- A relayed packet as its channel sends it. -/
def wrapped (serialization : NSJSONSerialization) (channelId : Nat) (packet : THPacket) :
    THPacket :=
  addressed channelId { THPacket.new with body := some (encode serialization packet) }

/-- The channel is open and has sent all it was given. -/
structure Open (channel : THUnreliableChannel) : Prop where
  opened : channel.state = .opened
  flushed : channel.packetBuffer = []

/-- What sending on the relay makes of a channel. -/
structure Sends (serialization : NSJSONSerialization) (channel after : THUnreliableChannel)
    (given : List THPacket) : Prop where
  id : after.channelId = channel.channelId
  registered : after.registered = channel.registered
  state : after.state = channel.state
  carries : Open channel → Open after ∧
    after.outbox = channel.outbox ++ given.map (wrapped serialization channel.channelId)

section Channels
variable {serialization : NSJSONSerialization} {channel after last : THUnreliableChannel}
  {given more : List THPacket} {now : Nat} {packet : THPacket}

theorem sends_refl (channel : THUnreliableChannel) : Sends serialization channel channel [] :=
  ⟨rfl, rfl, rfl, fun open_ => ⟨open_, (List.append_nil _).symm⟩⟩

theorem Sends.trans (first : Sends serialization channel after given)
    (second : Sends serialization after last more) :
    Sends serialization channel last (given ++ more) where
  id := second.id.trans first.id
  registered := second.registered.trans first.registered
  state := second.state.trans first.state
  carries open_ := by
    obtain ⟨still, sent⟩ := first.carries open_
    obtain ⟨still, sentMore⟩ := second.carries still
    refine ⟨still, ?_⟩
    rw [sentMore, sent, first.id, List.map_append, List.append_assoc]

theorem isEnd_wrapped (serialization : NSJSONSerialization) (channelId : Nat) (packet : THPacket) :
    isEnd (wrapped serialization channelId packet) = false := by
  have none_ : (wrapped serialization channelId packet).objectForKey "end" = none :=
    objectForKey_setObject_other _ "c" "end" (.number channelId) (by decide)
  rw [isEnd, none_]
  rfl

theorem sends_relaySendPacket (channel : THUnreliableChannel) (now : Nat) (packet : THPacket) :
    Sends serialization channel (relaySendPacket serialization now packet channel) [packet] := by
  have notEnd := isEnd_wrapped serialization channel.channelId packet
  unfold wrapped addressed at notEnd
  unfold relaySendPacket THUnreliableChannel.sendPacket
  dsimp only
  split
  · rename_i halted
    refine ⟨rfl, rfl, rfl, fun open_ => ?_⟩
    rw [open_.opened] at halted
    simp [THChannelState.Halted] at halted
  · unfold THUnreliableChannel.sendAddressed
    dsimp only
    split
    · rename_i opened
      simp only [THUnreliableChannel.realSend, THUnreliableChannel.adoptType] at opened ⊢
      exact ⟨rfl, by simp [notEnd], rfl, fun open_ => ⟨⟨open_.opened, open_.flushed⟩, rfl⟩⟩
    · rename_i buffered
      refine ⟨rfl, rfl, rfl, fun open_ => absurd open_.opened buffered⟩

/-- Sending one packet after the other. -/
def sendAll (serialization : NSJSONSerialization) (now : Nat) (given : List THPacket)
    (channel : THUnreliableChannel) : THUnreliableChannel :=
  given.foldl (fun channel packet => relaySendPacket serialization now packet channel) channel

theorem sends_sendAll (now : Nat) (given : List THPacket) (channel : THUnreliableChannel) :
    Sends serialization channel (sendAll serialization now given channel) given := by
  induction given generalizing channel with
  | nil => exact sends_refl channel
  | cons packet rest ih => exact (sends_relaySendPacket channel now packet).trans (ih _)

theorem setState_open (open_ : Open channel) : channel.setState .opened = channel := by
  obtain ⟨opened, flushed⟩ := open_
  cases channel
  subst opened flushed
  rfl

/-- A packet without an error leaves an open channel open. -/
theorem heard_open (serialization : NSJSONSerialization) (now : Nat) {held : ViaChannel}
    (open_ : Open held.channel) (silent : packet.objectForKey "err" = none) :
    Sends serialization held.channel (heard now packet held).channel [] := by
  have reopened : (if opensAgain packet then held.channel.setState .opened else held.channel) =
      held.channel := by
    rw [setState_open open_, ite_self]
  simp only [heard, reopened, THUnreliableChannel.superHandlePacket, silent]
  exact ⟨rfl, rfl, rfl, fun _ => ⟨⟨open_.opened, open_.flushed⟩, (List.append_nil _).symm⟩⟩

theorem heard_err {held : ViaChannel} {err : Json} (raises : packet.objectForKey "err" = some err) :
    (heard now packet held).channel.registered = false ∧
      (heard now packet held).channel.state = .errored := by
  simp only [heard, THUnreliableChannel.superHandlePacket, raises]
  exact ⟨rfl, rfl⟩

/-- A channel that is still in its table has not been ended. -/
theorem ended_registered {held : ViaChannel}
    (registered : (ended now packet held).channel.registered) : ended now packet held = held := by
  unfold ended at registered ⊢
  split
  · rename_i ends
    rw [if_pos ends] at registered
    simp [THUnreliableChannel.setState, THUnreliableChannel.close,
      THUnreliableChannel.deregister] at registered
  · rfl

end Channels

/-! ## Sending -/

section Sending
variable {serialization : NSJSONSerialization} {stack : StackBytes} {order : ByteOrder}
  {relay after : THRelay} {ref : ChannelRef}

/-- The relay with packets sent on one of its channels. -/
def sentOn (serialization : NSJSONSerialization) (now : Nat) (ref : ChannelRef)
    (given : List THPacket) (relay : THRelay) : THRelay :=
  { relay with asked := relay.asked ++ given }.updateChannel ref fun held =>
    { held with channel := sendAll serialization now given held.channel }

theorem sendPacket_peer (serialization : NSJSONSerialization) (order : ByteOrder)
    (peer : relay.peerChannel = some ref) (now : Nat) (packet : THPacket) :
    sendPacket serialization order now relay packet =
      .ok (sentOn serialization now ref [packet] relay) := by
  cases relay
  cases peer
  rfl

theorem sentOn_sentOn (now : Nat) (ref : ChannelRef) (given more : List THPacket)
    (relay : THRelay) :
    sentOn serialization now ref more (sentOn serialization now ref given relay) =
      sentOn serialization now ref (given ++ more) relay := by
  simp [sentOn, THRelay.updateChannel, sendAll, List.foldl_append]

/-- With a channel at hand all goes out on it. -/
theorem sends_peer (peer : relay.peerChannel = some ref) (now : Nat) (sends : List THPacket) :
    sends.foldlM (sendPacket serialization order now) relay =
      .ok (sentOn serialization now ref sends relay) := by
  induction sends generalizing relay with
  | nil => simp [sentOn, THRelay.updateChannel, sendAll, pure_eq_ok]
  | cons packet rest ih =>
      have still : (sentOn serialization now ref [packet] relay).peerChannel = some ref := peer
      rw [List.foldlM_cons, sendPacket_peer serialization order peer, ok_bind, ih still,
        sentOn_sentOn]
      rfl

/-- The channel the relay takes on a packet it can read. -/
def takes (relay : THRelay) (ref : ChannelRef) : THRelay :=
  if relay.peerActivity = 0 then
    { relay with
      peerChannel := some ref
      relayIdentity := some (relay.channels ref).toIdentity }
  else relay

theorem takes_peer (relay : THRelay) (ref : ChannelRef) :
    ∃ peer, (takes relay ref).peerChannel = some peer ∧
      (peer = ref ∧ (takes relay ref).relayIdentity = some (relay.channels ref).toIdentity ∨
        relay.peerActivity ≠ 0 ∧ relay.peerChannel = some peer ∧ takes relay ref = relay) := by
  unfold takes
  split
  · exact ⟨ref, rfl, Or.inl ⟨rfl, rfl⟩⟩
  · rename_i heard_
    cases peer : relay.peerChannel with
    | none => simp [THRelay.peerActivity, peer] at heard_
    | some held => exact ⟨held, rfl, Or.inr ⟨heard_, rfl, rfl⟩⟩

/-- With a packet it can read the relay has a channel, and all that the switch sends goes out
on it. -/
theorem relayHandle_read {packet : THPacket} {relayed : Relayed}
    (read : relayHandlePacket serialization stack packet = .ok (some relayed)) (now : Nat)
    (sends : List THPacket) :
    ∃ peer, (takes relay ref).peerChannel = some peer ∧
      relayHandle serialization stack order relay now ref packet sends =
        .ok (sentOn serialization now peer sends
          { takes relay ref with handed := relay.handed ++ [relayed.packet] }) := by
  obtain ⟨peer, taken, _⟩ := takes_peer relay ref
  have same : (takes relay ref).handed = relay.handed := by
    unfold takes
    split <;> rfl
  have still : { takes relay ref with
      handed := (takes relay ref).handed ++ [relayed.packet] }.peerChannel = some peer := taken
  refine ⟨peer, taken, ?_⟩
  have whole : relayHandle serialization stack order relay now ref packet sends =
      sends.foldlM (sendPacket serialization order now)
        { takes relay ref with handed := (takes relay ref).handed ++ [relayed.packet] } := by
    unfold relayHandle
    rw [read, ok_bind]
    rfl
  rw [whole, sends_peer still, same]

/-- A packet the relay cannot read changes nothing. -/
theorem relayHandle_cases {now : Nat} {packet : THPacket} {sends : List THPacket}
    (handling : relayHandle serialization stack order relay now ref packet sends = .ok after) :
    relayHandlePacket serialization stack packet = .ok none ∧ after = relay ∨
      ∃ relayed peer, relayHandlePacket serialization stack packet = .ok (some relayed) ∧
        (takes relay ref).peerChannel = some peer ∧ after = sentOn serialization now peer sends
          { takes relay ref with handed := relay.handed ++ [relayed.packet] } := by
  obtain ⟨read, reading, whole⟩ := (bind_ok_iff _ _ _).mp handling
  cases read with
  | none =>
      cases whole
      exact Or.inl ⟨reading, rfl⟩
  | some relayed =>
      obtain ⟨peer, taken, handles⟩ := relayHandle_read reading now sends
      exact Or.inr ⟨relayed, peer, reading, taken, Except.ok.inj (handling.symm.trans handles)⟩

end Sending

/-! ## The state of a relay -/

/-- A channel of a table is open and has its id; the channels that wait for a line have none;
the relay sends on a channel of the identity it is relayed by. -/
structure Sound (relay : THRelay) : Prop where
  made : ∀ ref, (relay.channels ref).numbered → ref < relay.nextChannel
  held : ∀ ref, relay.registered ref →
    (relay.channels ref).numbered ∧ Open (relay.channels ref).channel
  pending : ∀ ref ∈ relay.pendingJobs,
    ref < relay.nextChannel ∧ (relay.channels ref).numbered = false
  nodup : relay.pendingJobs.Nodup
  peer : ∀ ref, relay.peerChannel = some ref →
    relay.registered ref ∧ relay.relayIdentity = some (relay.channels ref).toIdentity

/-- Nothing is sent: a channel that had its id is as it was, if it is still in its table, and the
relay sends on the same. -/
structure Quiet (relay after : THRelay) : Prop where
  next : relay.nextChannel ≤ after.nextChannel
  kept : ∀ ref, (relay.channels ref).numbered →
    (after.channels ref).numbered ∧
      (after.registered ref → after.channels ref = relay.channels ref)
  peer : ∀ ref, relay.peerChannel = some ref → after.registered ref →
    after.peerChannel = some ref
  asked : after.asked = relay.asked

theorem quiet_refl (relay : THRelay) : Quiet relay relay :=
  ⟨le_rfl, fun _ numbered => ⟨numbered, fun _ => rfl⟩, fun _ peer _ => peer, rfl⟩

section Opening
variable {relay after last : THRelay} {ref : ChannelRef} {order : ByteOrder}

theorem registered_congr (same : after.channels ref = relay.channels ref) :
    after.registered ref = relay.registered ref := by
  rw [THRelay.registered, THRelay.registered, same]

theorem Quiet.trans (sound : Sound relay) (first : Quiet relay after) (second : Quiet after last) :
    Quiet relay last where
  next := first.next.trans second.next
  kept ref numbered := by
    obtain ⟨middle, same⟩ := first.kept ref numbered
    obtain ⟨final, again⟩ := second.kept ref middle
    refine ⟨final, fun registered => ?_⟩
    have unchanged := again registered
    rw [unchanged]
    exact same (registered_congr unchanged ▸ registered)
  peer ref peer registered := by
    obtain ⟨middle, _⟩ := first.kept ref (sound.held ref (sound.peer ref peer).1).1
    obtain ⟨_, again⟩ := second.kept ref middle
    have still : after.registered ref = true := registered_congr (again registered) ▸ registered
    exact second.peer ref (first.peer ref peer still) registered
  asked := second.asked.trans first.asked

theorem peerChannel_weak (relay : THRelay) (ref : ChannelRef) :
    relay.weak.peerChannel = some ref ↔ relay.peerChannel = some ref ∧ relay.registered ref := by
  rw [THRelay.weak, Option.filter_eq_some_iff]

theorem sound_weak (made : ∀ ref, (relay.channels ref).numbered → ref < relay.nextChannel)
    (held : ∀ ref, relay.registered ref →
      (relay.channels ref).numbered ∧ Open (relay.channels ref).channel)
    (pending : ∀ ref ∈ relay.pendingJobs,
      ref < relay.nextChannel ∧ (relay.channels ref).numbered = false)
    (nodup : relay.pendingJobs.Nodup)
    (peer : ∀ ref, relay.peerChannel = some ref →
      relay.relayIdentity = some (relay.channels ref).toIdentity) : Sound relay.weak where
  made := made
  held := held
  pending := pending
  nodup := nodup
  peer ref known := by
    obtain ⟨known, registered⟩ := (peerChannel_weak relay ref).mp known
    exact ⟨registered, peer ref known⟩

theorem displaced_registered {toIdentity : IdentityRef} {channelId : Nat} {held : ViaChannel}
    (registered : (displaced toIdentity channelId held).channel.registered) :
    displaced toIdentity channelId held = held := by
  unfold displaced at registered ⊢
  split
  · rename_i same
    rw [if_pos same] at registered
    simp [THUnreliableChannel.deregister] at registered
  · rfl

theorem displaced_keeps (toIdentity : IdentityRef) (channelId : Nat) (held : ViaChannel) :
    (displaced toIdentity channelId held).numbered = held.numbered ∧
      (displaced toIdentity channelId held).toIdentity = held.toIdentity := by
  unfold displaced
  split
  · exact ⟨rfl, rfl⟩
  · exact ⟨rfl, rfl⟩

theorem channels_channelLine (relay : THRelay) (ref : ChannelRef) (nextChannelId : Nat) :
    (channelLine relay ref nextChannelId).channels = Function.update
      (fun other => displaced (relay.channels ref).toIdentity ((nextChannelId + 2) % uintModulus)
        (relay.channels other)) ref { relay.channels ref with
          numbered := true
          channel := { (relay.channels ref).channel with
            channelId := (nextChannelId + 2) % uintModulus
            registered := true }.setState .opened } := rfl

/-- Opening a channel that had no id may displace others, and disturbs none besides. -/
theorem sound_channelLine (sound : Sound relay) (made : ref < relay.nextChannel)
    (unnumbered : (relay.channels ref).numbered = false) (unqueued : ref ∉ relay.pendingJobs)
    (nextChannelId : Nat) :
    Sound (channelLine relay ref nextChannelId) ∧
      Quiet relay (channelLine relay ref nextChannelId) := by
  have other : ∀ one, one ≠ ref → (channelLine relay ref nextChannelId).channels one =
      displaced (relay.channels ref).toIdentity ((nextChannelId + 2) % uintModulus)
        (relay.channels one) := by
    intro one different
    rw [channels_channelLine, Function.update_of_ne different]
  have same : (channelLine relay ref nextChannelId).channels ref =
      { relay.channels ref with
        numbered := true
        channel := { (relay.channels ref).channel with
          channelId := (nextChannelId + 2) % uintModulus
          registered := true }.setState .opened } := by
    rw [channels_channelLine, Function.update_self]
  have unlike : ∀ one, (relay.channels one).numbered → one ≠ ref := by
    rintro one numbered rfl
    rw [unnumbered] at numbered
    cases numbered
  constructor
  · refine sound_weak ?_ ?_ ?_ sound.nodup ?_
    · intro one numbered
      by_cases equal : one = ref
      · rw [equal]
        exact made
      · change ((channelLine relay ref nextChannelId).channels one).numbered = true at numbered
        rw [other one equal, (displaced_keeps _ _ _).1] at numbered
        exact sound.made one numbered
    · intro one registered
      change (channelLine relay ref nextChannelId).registered one = true at registered
      change ((channelLine relay ref nextChannelId).channels one).numbered = true ∧
        Open ((channelLine relay ref nextChannelId).channels one).channel
      by_cases equal : one = ref
      · subst equal
        rw [same]
        obtain ⟨_, opened, flushed, _⟩ := UnreliableQueue.setState_opened
          { (relay.channels one).channel with
            channelId := (nextChannelId + 2) % uintModulus, registered := true }
        exact ⟨rfl, opened, flushed⟩
      · have unchanged := other one equal
        rw [THRelay.registered, unchanged] at registered
        rw [unchanged, displaced_registered registered]
        rw [displaced_registered registered] at registered
        exact sound.held one registered
    · intro job queued
      obtain ⟨inside, none_⟩ := sound.pending job queued
      have equal : job ≠ ref := fun equal => unqueued (equal ▸ queued)
      refine ⟨inside, ?_⟩
      change ((channelLine relay ref nextChannelId).channels job).numbered = false
      rw [other job equal, (displaced_keeps _ _ _).1]
      exact none_
    · intro one known
      obtain ⟨registered, identity⟩ := sound.peer one known
      change relay.relayIdentity =
        some ((channelLine relay ref nextChannelId).channels one).toIdentity
      rw [other one (unlike one (sound.held one registered).1), (displaced_keeps _ _ _).2]
      exact identity
  · constructor
    case next => exact le_rfl
    case asked => rfl
    case kept =>
      intro one numbered
      have unchanged := other one (unlike one numbered)
      refine ⟨by rw [unchanged, (displaced_keeps _ _ _).1]; exact numbered, fun registered => ?_⟩
      rw [THRelay.registered, unchanged] at registered
      rw [unchanged, displaced_registered registered]
    case peer =>
      intro one known registered
      exact (peerChannel_weak _ one).mpr ⟨known, registered⟩

theorem sound_openChannel (sound : Sound relay) (made : ref < relay.nextChannel)
    (unnumbered : (relay.channels ref).numbered = false) (unqueued : ref ∉ relay.pendingJobs) :
    Sound (openChannel relay ref) ∧ Quiet relay (openChannel relay ref) := by
  unfold openChannel
  split
  · refine ⟨⟨sound.made, sound.held, ?_, ?_, sound.peer⟩, ⟨le_rfl, (quiet_refl relay).kept,
      (quiet_refl relay).peer, rfl⟩⟩
    · intro job queued
      rcases List.mem_append.mp queued with old | new
      · exact sound.pending job old
      · rw [List.mem_singleton.mp new]
        exact ⟨made, unnumbered⟩
    · exact List.nodup_append.mpr ⟨sound.nodup, List.nodup_singleton ref, by
        rintro job old other new rfl
        exact unqueued (List.mem_singleton.mp new ▸ old)⟩
  · exact sound_channelLine sound made unnumbered unqueued _

/-- The relay with a new channel to a via. -/
def withNewChannel (relay : THRelay) (viaIdentity : IdentityRef) : THRelay :=
  { relay.updateChannel relay.nextChannel fun _ => .initToIdentity viaIdentity with
    nextChannel := relay.nextChannel + 1 }

theorem channels_withNewChannel (relay : THRelay) (viaIdentity : IdentityRef) :
    (withNewChannel relay viaIdentity).channels =
      Function.update relay.channels relay.nextChannel (.initToIdentity viaIdentity) := rfl

theorem new_withNewChannel (relay : THRelay) (viaIdentity : IdentityRef) :
    (withNewChannel relay viaIdentity).channels relay.nextChannel =
      .initToIdentity viaIdentity := by
  rw [channels_withNewChannel, Function.update_self]

theorem withNewChannel_eq (relay : THRelay) (viaIdentity : IdentityRef) :
    { relay.updateChannel relay.nextChannel fun _ => .initToIdentity viaIdentity with
      nextChannel := relay.nextChannel + 1 } = withNewChannel relay viaIdentity := rfl

theorem sound_withNewChannel (sound : Sound relay) (viaIdentity : IdentityRef) :
    Sound (withNewChannel relay viaIdentity) ∧
      Quiet relay (withNewChannel relay viaIdentity) := by
  have other : ∀ one, (relay.channels one).numbered →
      (withNewChannel relay viaIdentity).channels one = relay.channels one := by
    intro one numbered
    exact Function.update_of_ne (Nat.ne_of_lt (sound.made one numbered)) _ _
  have old : ∀ one, ((withNewChannel relay viaIdentity).channels one).numbered →
      (relay.channels one).numbered ∧
        (withNewChannel relay viaIdentity).channels one = relay.channels one := by
    intro one numbered
    have different : one ≠ relay.nextChannel := by
      rintro rfl
      rw [channels_withNewChannel, Function.update_self] at numbered
      cases numbered
    rw [channels_withNewChannel, Function.update_of_ne different] at numbered ⊢
    exact ⟨numbered, rfl⟩
  have oldRegistered : ∀ one, (withNewChannel relay viaIdentity).registered one →
      (withNewChannel relay viaIdentity).channels one = relay.channels one := by
    intro one registered
    have different : one ≠ relay.nextChannel := by
      rintro rfl
      rw [THRelay.registered, channels_withNewChannel, Function.update_self] at registered
      cases registered
    rw [channels_withNewChannel, Function.update_of_ne different]
  constructor
  · constructor
    case made => exact fun one numbered => Nat.lt_succ_of_lt (sound.made one (old one numbered).1)
    case held =>
      intro one registered
      have same := oldRegistered one registered
      rw [same]
      exact sound.held one (registered_congr same ▸ registered)
    case pending =>
      intro job queued
      obtain ⟨inside, unnumbered⟩ := sound.pending job queued
      refine ⟨Nat.lt_succ_of_lt inside, ?_⟩
      rw [channels_withNewChannel, Function.update_of_ne (Nat.ne_of_lt inside)]
      exact unnumbered
    case nodup => exact sound.nodup
    case peer =>
      intro one known
      obtain ⟨registered, identity⟩ := sound.peer one known
      have same := other one (sound.held one registered).1
      rw [same]
      exact ⟨(registered_congr same).trans registered, identity⟩
  · constructor
    case next => exact Nat.le_succ _
    case kept => exact fun one numbered => ⟨by rw [other one numbered]; exact numbered,
      fun _ => other one numbered⟩
    case peer => exact fun _ known _ => known
    case asked => rfl

/-- A new channel that a line opens has its id and a place in the table of its via. -/
theorem opened_new {viaIdentity : IdentityRef}
    (new : relay.channels ref = .initToIdentity viaIdentity)
    (numbered : ((openChannel relay ref).channels ref).numbered) :
    (openChannel relay ref).registered ref ∧
      ((openChannel relay ref).channels ref).toIdentity = viaIdentity ∧
      ((openChannel relay ref).channels ref).lastInActivity = 0 := by
  unfold openChannel at numbered ⊢
  split at numbered
  · rw [new] at numbered
    cases numbered
  · rename_i nextChannelId lined
    rw [THRelay.registered, channels_channelLine, Function.update_self, new]
    exact ⟨rfl, rfl, rfl⟩

/-- Attaching a via opens a channel to it. Only where the channel has a line and the switch the
key does the relay ask the via, and sends on the channel from then on. -/
theorem attachVia_cases {viaIdentity : IdentityRef} (sound : Sound relay)
    (attaching : attachVia order relay viaIdentity = .ok after) :
    Sound after ∧ ∃ opened lines, Sound opened ∧ Quiet relay opened ∧
      (after = { opened with lines := lines } ∨
        ∃ packet, opened.registered relay.nextChannel ∧
          (opened.channels relay.nextChannel).toIdentity = viaIdentity ∧
          (opened.channels relay.nextChannel).lastInActivity = 0 ∧
          after = { opened with
            lines := lines
            relayIdentity := some viaIdentity
            peerChannel := some relay.nextChannel
            requests := opened.requests ++ [(viaIdentity, packet)] }) := by
  obtain ⟨started, quiet⟩ := sound_withNewChannel sound viaIdentity
  have new := new_withNewChannel relay viaIdentity
  have unqueued : relay.nextChannel ∉ relay.pendingJobs := fun queued =>
    Nat.lt_irrefl _ (sound.pending _ queued).1
  obtain ⟨opens, still⟩ :=
    sound_openChannel started (Nat.lt_succ_self _) (by rw [new]; rfl) unqueued
  have whole := quiet.trans sound still
  have newly := opened_new new
  unfold attachVia at attaching
  dsimp only at attaching
  rw [withNewChannel_eq] at attaching
  generalize openChannel (withNewChannel relay viaIdentity) relay.nextChannel = opened
    at attaching opens still whole newly
  have relined : ∀ lines, Sound { opened with lines := lines } := fun lines =>
    ⟨opens.made, opens.held, opens.pending, opens.nodup, opens.peer⟩
  split at attaching
  · rename_i nextChannelId lined
    split at attaching
    · rename_i numbered
      obtain ⟨asked, asking, attaching⟩ := (bind_ok_iff _ _ _).mp attaching
      cases asked with
      | none =>
          cases attaching
          exact ⟨relined _, opened, _, opens, whole, Or.inl rfl⟩
      | some packet =>
          cases attaching
          obtain ⟨registered, identity, unheard⟩ := newly numbered
          refine ⟨⟨opens.made, opens.held, opens.pending, opens.nodup, ?_⟩, opened, _, opens, whole,
            Or.inr ⟨packet, registered, identity, unheard, rfl⟩⟩
          rintro one ⟨⟩
          exact ⟨registered, congrArg some identity.symm⟩
    · cases attaching
      exact ⟨opens, after, after.lines, opens, whole, Or.inl rfl⟩
  · cases attaching
    exact ⟨opens, after, after.lines, opens, whole, Or.inl rfl⟩

end Opening

/-! ## A packet on a channel of the relay -/

section Handling
variable {serialization : NSJSONSerialization} {stack : StackBytes} {order : ByteOrder}
  {relay middle after : THRelay} {ref : ChannelRef} {now : Nat} {packet : THPacket}
  {sends : List THPacket} {given : ChannelRef → List THPacket}

/-- What a channel has of the packets the relay sends. -/
def onPeer (relay : THRelay) (sends : List THPacket) (ref : ChannelRef) : List THPacket :=
  if relay.peerChannel = some ref then sends else []

/-- The relay once its channel and the delegate have had the packet. -/
structure Handles (serialization : NSJSONSerialization) (relay middle : THRelay) (now : Nat)
    (ref : ChannelRef) (packet : THPacket) (sends : List THPacket) : Prop where
  next : middle.nextChannel = relay.nextChannel
  jobs : middle.pendingJobs = relay.pendingJobs
  fields : ∀ one, (middle.channels one).toIdentity = (relay.channels one).toIdentity ∧
    (middle.channels one).numbered = (relay.channels one).numbered
  own : (middle.channels ref).lastInActivity = now ∧
    Sends serialization (heard now packet (relay.channels ref)).channel
      (middle.channels ref).channel (onPeer middle sends ref)
  others : ∀ one, one ≠ ref →
    (middle.channels one).lastInActivity = (relay.channels one).lastInActivity ∧
      Sends serialization (relay.channels one).channel (middle.channels one).channel
        (onPeer middle sends one)
  asked : middle.asked = relay.asked ++ sends
  peer : ∀ one, middle.peerChannel = some one →
    relay.peerChannel = some one ∧ middle.relayIdentity = relay.relayIdentity ∨
      one = ref ∧ middle.relayIdentity = some (relay.channels ref).toIdentity
  -- the relay stays with a channel it has heard from
  stays : ∀ one, relay.peerChannel = some one → (middle.channels one).lastInActivity ≠ 0 →
    (one = ref → packet.objectForKey "err" = none) → middle.peerChannel = some one

theorem handles_failed (serialization : NSJSONSerialization) (relay : THRelay) (now : Nat)
    (ref : ChannelRef) (packet : THPacket) :
    Handles serialization relay ((didFail relay ref packet).updateChannel ref (heard now packet))
      now ref packet [] := by
  have same : (didFail relay ref packet).channels = relay.channels ∧
      (didFail relay ref packet).nextChannel = relay.nextChannel ∧
      (didFail relay ref packet).pendingJobs = relay.pendingJobs ∧
      (didFail relay ref packet).asked = relay.asked ∧
      (didFail relay ref packet).relayIdentity = relay.relayIdentity := by
    unfold didFail
    split
    · exact ⟨rfl, rfl, rfl, rfl, rfl⟩
    · exact ⟨rfl, rfl, rfl, rfl, rfl⟩
  obtain ⟨channels, next, jobs, asked, identity⟩ := same
  have nothing : ∀ failed one, onPeer failed [] one = [] := fun failed one => by
    rw [onPeer, ite_self]
  have other : ∀ one, one ≠ ref →
      ((didFail relay ref packet).updateChannel ref (heard now packet)).channels one =
        relay.channels one := by
    intro one different
    rw [THRelay.channels_updateChannel_other _ _ different, channels]
  constructor
  case next => exact next
  case jobs => exact jobs
  case fields =>
    intro one
    by_cases equal : one = ref
    · rw [equal, THRelay.channels_updateChannel_same, channels]
      exact ⟨rfl, rfl⟩
    · rw [other one equal]
      exact ⟨rfl, rfl⟩
  case own =>
    rw [nothing, THRelay.channels_updateChannel_same, channels]
    exact ⟨rfl, sends_refl _⟩
  case others =>
    intro one different
    rw [nothing, other one different]
    exact ⟨rfl, sends_refl _⟩
  case asked => exact asked.trans (List.append_nil _).symm
  case peer =>
    intro one known
    refine Or.inl ⟨?_, identity⟩
    have known : (didFail relay ref packet).peerChannel = some one := known
    unfold didFail at known
    split at known
    · cases known
    · exact known
  case stays =>
    intro one known _ silent
    change (didFail relay ref packet).peerChannel = some one
    have spared : ¬ ((packet.objectForKey "err").isSome ∧ relay.peerChannel = some ref) := by
      rintro ⟨raises, failing⟩
      rw [silent (Option.some.inj (known.symm.trans failing))] at raises
      cases raises
    rw [didFail, if_neg spared]
    exact known

/-- The relay gives the packet to the switch, and sends what the switch sends. -/
theorem handles_sent (failed : Handles serialization relay middle now ref packet [])
    {peer : ChannelRef} (taken : (takes middle ref).peerChannel = some peer)
    (handed sends : List THPacket) :
    Handles serialization relay
      (sentOn serialization now peer sends { takes middle ref with handed := handed }) now ref
      packet sends := by
  have same : (takes middle ref).channels = middle.channels ∧
      (takes middle ref).nextChannel = middle.nextChannel ∧
      (takes middle ref).pendingJobs = middle.pendingJobs ∧
      (takes middle ref).asked = middle.asked := by
    unfold takes
    split
    · exact ⟨rfl, rfl, rfl, rfl⟩
    · exact ⟨rfl, rfl, rfl, rfl⟩
  obtain ⟨channels, next, jobs, asked⟩ := same
  obtain ⟨one, found, ways⟩ := takes_peer middle ref
  cases Option.some.inj (found.symm.trans taken)
  generalize last_ : sentOn serialization now peer sends
    { takes middle ref with handed := handed } = last
  have peerNow : last.peerChannel = some peer := by rw [← last_]; exact taken
  have identityNow : last.relayIdentity = (takes middle ref).relayIdentity := by rw [← last_]; rfl
  have more : ∀ other, (last.channels other).toIdentity = (middle.channels other).toIdentity ∧
      (last.channels other).numbered = (middle.channels other).numbered ∧
      (last.channels other).lastInActivity = (middle.channels other).lastInActivity ∧
      Sends serialization (middle.channels other).channel (last.channels other).channel
        (onPeer last sends other) := by
    intro other
    rw [onPeer, peerNow, ← last_]
    by_cases equal : other = peer
    · subst equal
      rw [if_pos rfl, sentOn, THRelay.channels_updateChannel_same]
      dsimp only
      rw [channels]
      exact ⟨rfl, rfl, rfl, sends_sendAll now sends _⟩
    · rw [if_neg fun same => equal (Option.some.inj same).symm, sentOn,
        THRelay.channels_updateChannel_other _ _ equal]
      dsimp only
      rw [channels]
      exact ⟨rfl, rfl, rfl, sends_refl _⟩
  constructor
  case next => rw [← last_]; exact next.trans failed.next
  case jobs => rw [← last_]; exact jobs.trans failed.jobs
  case fields =>
    intro other
    obtain ⟨toIdentity, numbered, _⟩ := more other
    rw [toIdentity, numbered]
    exact failed.fields other
  case own =>
    obtain ⟨_, _, active, sent⟩ := more ref
    have whole := failed.own.2.trans sent
    rw [onPeer, ite_self, List.nil_append] at whole
    exact ⟨active.trans failed.own.1, whole⟩
  case others =>
    intro other different
    obtain ⟨_, _, active, sent⟩ := more other
    have whole := (failed.others other different).2.trans sent
    rw [onPeer, ite_self, List.nil_append] at whole
    exact ⟨active.trans (failed.others other different).1, whole⟩
  case asked =>
    rw [← last_]
    exact congrArg (· ++ sends) (asked.trans (failed.asked.trans (List.append_nil _)))
  case peer =>
    intro other known
    cases Option.some.inj (known.symm.trans peerNow)
    rw [identityNow]
    rcases ways with ⟨rfl, identity⟩ | ⟨_, before, same⟩
    · exact Or.inr ⟨rfl, identity.trans (congrArg some (failed.fields _).1)⟩
    · rw [same]
      exact failed.peer _ before
  case stays =>
    intro other known active silent
    have activeBefore : (middle.channels other).lastInActivity ≠ 0 := (more other).2.2.1 ▸ active
    have before := failed.stays other known activeBefore silent
    have busy : middle.peerActivity ≠ 0 := by rw [THRelay.peerActivity, before]; exact activeBefore
    have same : takes middle ref = middle := if_neg busy
    rw [peerNow, ← before, ← same, found]

theorem ended_fields (now : Nat) (packet : THPacket) (held : ViaChannel) :
    (ended now packet held).toIdentity = held.toIdentity ∧
      (ended now packet held).numbered = held.numbered := by
  unfold ended
  split
  · exact ⟨rfl, rfl⟩
  · exact ⟨rfl, rfl⟩

/-- A packet is handled in these steps; one the relay can read gives it the channel, unless it
has heard from the one it has. -/
theorem handlePacket_handles (sound : Sound relay) (registered : relay.registered ref)
    (handling : handlePacket serialization stack order relay now ref packet sends = .ok after) :
    ∃ middle sent, Handles serialization relay middle now ref packet sent ∧
      after = (middle.updateChannel ref (ended now packet)).weak ∧
      ∀ relayed, relayHandlePacket serialization stack packet = .ok (some relayed) →
        relay.peerActivity = 0 → middle.peerChannel = some ref := by
  have failed := handles_failed serialization relay now ref packet
  have started : ((didFail relay ref packet).updateChannel ref (heard now packet)).channels ref =
      heard now packet (relay.channels ref) := by
    rw [THRelay.channels_updateChannel_same, didFail]
    split <;> rfl
  unfold handlePacket at handling
  rw [if_pos registered] at handling
  generalize (didFail relay ref packet).updateChannel ref (heard now packet) = first
    at failed started handling
  have unopened : ((first.channels ref).channel.state = .opening) = False := by
    rw [started]
    refine eq_false fun opening => ?_
    cases err : packet.objectForKey "err" with
    | some raised =>
        rw [(heard_err err).2] at opening
        cases opening
    | none =>
        have open_ := (sound.held ref registered).2
        have silent := heard_open serialization now open_ err
        rw [silent.state, open_.opened] at opening
        cases opening
  simp only [unopened, if_false] at handling
  obtain ⟨relayed, relaying, handling⟩ := (bind_ok_iff _ _ _).mp handling
  cases handling
  rcases relayHandle_cases relaying with ⟨unread, rfl⟩ | ⟨read, peer, reading, taken, rfl⟩
  · refine ⟨relayed, [], failed, rfl, fun relayed reading => ?_⟩
    rw [unread] at reading
    cases reading
  · have sent := handles_sent failed taken (first.handed ++ [read.packet]) sends
    refine ⟨_, sends, sent, rfl, fun _ _ unheard => ?_⟩
    change (takes first ref).peerChannel = some ref
    by_cases mine : first.peerChannel = some ref
    · unfold takes
      split
      · rfl
      · exact mine
    · have quiet : first.peerActivity = 0 := by
        unfold THRelay.peerActivity
        cases known : first.peerChannel with
        | none => rfl
        | some one =>
            have different : one ≠ ref := fun equal => mine (equal ▸ known)
            obtain ⟨before, _⟩ := (failed.peer one known).resolve_right fun equal =>
              different equal.1
            dsimp only
            rw [(failed.others one different).1]
            rw [THRelay.peerActivity, before] at unheard
            exact unheard
      rw [takes, if_pos quiet]

/-- A channel that is in its table after a packet is open and has sent what it was given. -/
theorem handles_registered (sound : Sound relay) (registered : relay.registered ref)
    (handles : Handles serialization relay middle now ref packet sends) {one : ChannelRef}
    (still : (middle.updateChannel ref (ended now packet)).registered one) :
    (middle.updateChannel ref (ended now packet)).channels one = middle.channels one ∧
      (one = ref → packet.objectForKey "err" = none) ∧
      Sends serialization (relay.channels one).channel (middle.channels one).channel
        (onPeer middle sends one) := by
  by_cases equal : one = ref
  · subst equal
    rw [THRelay.registered, THRelay.channels_updateChannel_same] at still
    have same := ended_registered still
    rw [same] at still
    rw [THRelay.channels_updateChannel_same, same]
    have silent : packet.objectForKey "err" = none := by
      cases err : packet.objectForKey "err" with
      | none => rfl
      | some raised =>
          rw [handles.own.2.registered, (heard_err err).1] at still
          cases still
    refine ⟨rfl, fun _ => silent, ?_⟩
    exact (heard_open serialization now (sound.held one registered).2 silent).trans handles.own.2
  · rw [THRelay.channels_updateChannel_other _ _ equal]
    exact ⟨rfl, fun same => absurd same equal, (handles.others one equal).2⟩

theorem sound_handlePacket (sound : Sound relay)
    (handling : handlePacket serialization stack order relay now ref packet sends = .ok after) :
    Sound after := by
  cases registered : relay.registered ref with
  | false =>
      simp only [handlePacket, registered, Bool.false_eq_true, if_false] at handling
      cases handling
      exact sound
  | true =>
      obtain ⟨middle, sent, handles, rfl, _⟩ := handlePacket_handles sound registered handling
      have fields : ∀ one, ((middle.updateChannel ref (ended now packet)).channels one).toIdentity =
            (relay.channels one).toIdentity ∧
          ((middle.updateChannel ref (ended now packet)).channels one).numbered =
            (relay.channels one).numbered := by
        intro one
        obtain ⟨toIdentity, numbered⟩ := handles.fields one
        by_cases equal : one = ref
        · rw [equal, THRelay.channels_updateChannel_same, (ended_fields _ _ _).1,
            (ended_fields _ _ _).2, ← equal]
          exact ⟨toIdentity, numbered⟩
        · rw [THRelay.channels_updateChannel_other _ _ equal]
          exact ⟨toIdentity, numbered⟩
      refine sound_weak ?_ ?_ ?_ (handles.jobs ▸ sound.nodup) ?_
      · intro one numbered
        rw [(fields one).2] at numbered
        exact handles.next ▸ sound.made one numbered
      · intro one still
        obtain ⟨same, _, sends_⟩ := handles_registered sound registered handles still
        have before : relay.registered one := by
          rw [THRelay.registered, same] at still
          exact sends_.registered.symm.trans still
        obtain ⟨numbered, open_⟩ := sound.held one before
        refine ⟨(fields one).2.trans numbered, ?_⟩
        rw [same]
        exact (sends_.carries open_).1
      · intro job queued
        have queued : job ∈ middle.pendingJobs := queued
        rw [handles.jobs] at queued
        obtain ⟨inside, unnumbered⟩ := sound.pending job queued
        exact ⟨handles.next ▸ inside, (fields job).2.trans unnumbered⟩
      · intro one known
        rw [(fields one).1]
        rcases handles.peer one known with ⟨before, same⟩ | ⟨rfl, taken⟩
        · exact same.trans (sound.peer one before).2
        · exact taken

end Handling

/-! ## One event -/

section Steps
variable {serialization : NSJSONSerialization} {stack : StackBytes} {order : ByteOrder}
  {relay after last : THRelay} {ref : ChannelRef}

/-- A channel keeps its id, and comes back into no table it has left. -/
def Moves (relay after : THRelay) : Prop :=
  ∀ ref, (relay.channels ref).numbered →
    (after.channels ref).numbered ∧ (after.registered ref → relay.registered ref)

theorem moves_quiet (quiet : Quiet relay after) : Moves relay after := by
  intro ref numbered
  obtain ⟨still, same⟩ := quiet.kept ref numbered
  exact ⟨still, fun registered => registered_congr (same registered) ▸ registered⟩

theorem channels_sentOn (serialization : NSJSONSerialization) (now : Nat)
    (given : List THPacket) (relay : THRelay) (ref one : ChannelRef) :
    ((sentOn serialization now ref given relay).channels one).toIdentity =
        (relay.channels one).toIdentity ∧
      ((sentOn serialization now ref given relay).channels one).numbered =
        (relay.channels one).numbered ∧
      ((sentOn serialization now ref given relay).channels one).lastInActivity =
        (relay.channels one).lastInActivity ∧
      Sends serialization (relay.channels one).channel
        ((sentOn serialization now ref given relay).channels one).channel
        (if one = ref then given else []) := by
  unfold sentOn
  by_cases equal : one = ref
  · subst equal
    rw [THRelay.channels_updateChannel_same, if_pos rfl]
    exact ⟨rfl, rfl, rfl, sends_sendAll now given _⟩
  · rw [THRelay.channels_updateChannel_other _ _ equal, if_neg equal]
    exact ⟨rfl, rfl, rfl, sends_refl _⟩

theorem sound_sentOn (serialization : NSJSONSerialization) (ref : ChannelRef) (sound : Sound relay)
    (now : Nat) (given : List THPacket) :
    Sound (sentOn serialization now ref given relay) ∧
      Moves relay (sentOn serialization now ref given relay) := by
  have channels := channels_sentOn serialization now given relay ref
  have before : ∀ one, (sentOn serialization now ref given relay).registered one →
      relay.registered one := fun one registered =>
    (channels one).2.2.2.registered.symm.trans registered
  constructor
  · constructor
    case made =>
      intro one numbered
      rw [(channels one).2.1] at numbered
      exact sound.made one numbered
    case held =>
      intro one registered
      obtain ⟨numbered, open_⟩ := sound.held one (before one registered)
      exact ⟨(channels one).2.1.trans numbered, ((channels one).2.2.2.carries open_).1⟩
    case pending =>
      intro job queued
      obtain ⟨inside, unnumbered⟩ := sound.pending job queued
      exact ⟨inside, (channels job).2.1.trans unnumbered⟩
    case nodup => exact sound.nodup
    case peer =>
      intro one known
      obtain ⟨registered, identity⟩ := sound.peer one known
      rw [(channels one).1]
      exact ⟨(channels one).2.2.2.registered.trans registered, identity⟩
  · exact fun one numbered => ⟨(channels one).2.1.trans numbered, before one⟩

/-- The relay with a packet it is to send. -/
def withAsked (relay : THRelay) (packet : THPacket) : THRelay :=
  { relay with asked := relay.asked ++ [packet] }

/-- With a channel of the relay the packet goes out on it. Without one the identity it was last
relayed by is attached again, and the packet goes out on the new channel if that made one. -/
theorem sendPacket_cases {now : Nat} {packet : THPacket}
    (sending : sendPacket serialization order now relay packet = .ok after) :
    (∃ peer, relay.peerChannel = some peer ∧ after = sentOn serialization now peer [packet] relay) ∨
      relay.peerChannel = none ∧
        (relay.relayIdentity = none ∧ after = withAsked relay packet ∨
          ∃ viaIdentity reached, relay.relayIdentity = some viaIdentity ∧
            attachVia order (withAsked relay packet) viaIdentity = .ok reached ∧
            (reached.peerChannel = none ∧ after = reached ∨
              ∃ peer, reached.peerChannel = some peer ∧
                after = reached.updateChannel peer fun held => { held with
                  channel := relaySendPacket serialization now packet held.channel })) := by
  cases peer : relay.peerChannel with
  | some one =>
      rw [sendPacket_peer serialization order peer] at sending
      cases sending
      exact Or.inl ⟨one, rfl, rfl⟩
  | none =>
      refine Or.inr ⟨rfl, ?_⟩
      unfold sendPacket at sending
      cases identity : relay.relayIdentity with
      | none =>
          simp only [peer, identity, ok_bind] at sending
          cases sending
          exact Or.inl ⟨rfl, by rw [withAsked, peer, identity]⟩
      | some viaIdentity =>
          simp only [peer, identity] at sending
          obtain ⟨reached, attaching, sending⟩ := (bind_ok_iff _ _ _).mp sending
          refine Or.inr ⟨viaIdentity, reached, rfl, ?_, ?_⟩
          · rw [withAsked, peer, identity]
            exact attaching
          cases found : reached.peerChannel with
          | none =>
              rw [found] at sending
              cases sending
              exact Or.inl ⟨rfl, rfl⟩
          | some ref =>
              rw [found] at sending
              cases sending
              exact Or.inr ⟨ref, rfl, rfl⟩

theorem sound_asked (sound : Sound relay) (asked : List THPacket) :
    Sound { relay with asked := asked } :=
  ⟨sound.made, sound.held, sound.pending, sound.nodup, sound.peer⟩

theorem sound_relined (sound : Sound relay) (lines : IdentityRef → Option Nat) :
    Sound { relay with lines := lines } :=
  ⟨sound.made, sound.held, sound.pending, sound.nodup, sound.peer⟩

theorem moves_attachVia {viaIdentity : IdentityRef} (sound : Sound relay)
    (attaching : attachVia order relay viaIdentity = .ok after) : Moves relay after := by
  obtain ⟨_, opened, lines, _, quiet, rfl | ⟨packet, _, _, _, rfl⟩⟩ :=
    attachVia_cases sound attaching
  · have moves := moves_quiet quiet
    exact moves
  · have moves := moves_quiet quiet
    exact moves

theorem sound_sendPacket {now : Nat} {packet : THPacket} (sound : Sound relay)
    (sending : sendPacket serialization order now relay packet = .ok after) :
    Sound after ∧ Moves relay after := by
  have asking : Sound (withAsked relay packet) := sound_asked sound _
  obtain ⟨peer, _, rfl⟩ | ⟨_, ⟨_, rfl⟩ | ⟨viaIdentity, reached, _, attaching, done⟩⟩ :=
    sendPacket_cases sending
  · exact sound_sentOn serialization peer sound now [packet]
  · exact ⟨asking, fun _ numbered => ⟨numbered, id⟩⟩
  · obtain ⟨reachedSound, _⟩ := attachVia_cases asking attaching
    have moves := moves_attachVia asking attaching
    change Moves relay reached at moves
    rcases done with ⟨_, rfl⟩ | ⟨peer, _, rfl⟩
    · exact ⟨reachedSound, moves⟩
    · obtain ⟨sent, more⟩ := sound_sentOn serialization peer reachedSound now [packet]
      refine ⟨sound_asked sent reached.asked, fun ref numbered => ?_⟩
      obtain ⟨middle, before⟩ := moves ref numbered
      obtain ⟨last, still⟩ := more ref middle
      exact ⟨last, before ∘ still⟩

/-- A pending job is run with a line of its identity. -/
theorem sound_release (sound : Sound relay) {index : Nat}
    (found : relay.pendingJobs[index]? = some ref) (nextChannelId : Nat) :
    Sound (channelLine { relay with pendingJobs := relay.pendingJobs.eraseIdx index } ref
        nextChannelId) ∧
      Quiet relay (channelLine { relay with pendingJobs := relay.pendingJobs.eraseIdx index } ref
        nextChannelId) := by
  obtain ⟨made, unnumbered⟩ := sound.pending ref (List.mem_of_getElem? found)
  have rest : Sound { relay with pendingJobs := relay.pendingJobs.eraseIdx index } :=
    ⟨sound.made, sound.held,
      fun job member => sound.pending job ((List.eraseIdx_sublist _ _).subset member),
      sound.nodup.sublist (List.eraseIdx_sublist _ _), sound.peer⟩
  have unqueued : ref ∉ relay.pendingJobs.eraseIdx index := by
    intro again
    obtain ⟨other, different, same⟩ := List.mem_eraseIdx_iff_getElem?.mp again
    obtain ⟨inside, _⟩ := List.getElem?_eq_some_iff.mp same
    exact different ((List.getElem?_inj inside sound.nodup).mp (same.trans found.symm))
  obtain ⟨opens, quiet⟩ := sound_channelLine rest made unnumbered unqueued nextChannelId
  exact ⟨opens, quiet.next, quiet.kept, quiet.peer, quiet.asked⟩

theorem sound_leaves (sound : Sound relay) (ref : ChannelRef) :
    Sound (relay.updateChannel ref fun held =>
        { held with channel := held.channel.deregister }).weak ∧
      Quiet relay (relay.updateChannel ref fun held =>
        { held with channel := held.channel.deregister }).weak := by
  generalize left_ : (relay.updateChannel ref fun held =>
    { held with channel := held.channel.deregister }) = left
  have own : left.channels ref =
      { relay.channels ref with channel := (relay.channels ref).channel.deregister } := by
    rw [← left_, THRelay.channels_updateChannel_same]
  have other : ∀ one, one ≠ ref → left.channels one = relay.channels one := fun one different => by
    rw [← left_, THRelay.channels_updateChannel_other _ _ different]
  have fields : ∀ one, (left.channels one).toIdentity = (relay.channels one).toIdentity ∧
      (left.channels one).numbered = (relay.channels one).numbered := by
    intro one
    by_cases equal : one = ref
    · rw [equal, own]
      exact ⟨rfl, rfl⟩
    · rw [other one equal]
      exact ⟨rfl, rfl⟩
  have kept : ∀ one, left.registered one → left.channels one = relay.channels one := by
    intro one registered
    by_cases equal : one = ref
    · rw [THRelay.registered, equal, own] at registered
      cases registered
    · exact other one equal
  constructor
  · rw [← left_] at fields kept ⊢
    refine sound_weak ?_ ?_ ?_ sound.nodup ?_
    · intro one numbered
      exact sound.made one ((fields one).2.symm.trans numbered)
    · intro one registered
      have same := kept one registered
      rw [same]
      exact sound.held one (registered_congr same ▸ registered)
    · intro job queued
      obtain ⟨inside, unnumbered⟩ := sound.pending job queued
      exact ⟨inside, (fields job).2.trans unnumbered⟩
    · intro one known
      rw [(fields one).1]
      exact (sound.peer one known).2
  · constructor
    case next => rw [← left_]; exact le_rfl
    case asked => rw [← left_]; rfl
    case kept =>
      intro one numbered
      exact ⟨(fields one).2.trans numbered, kept one⟩
    case peer =>
      intro one known registered
      have before : left.peerChannel = some one := by rw [← left_]; exact known
      exact (peerChannel_weak left one).mpr ⟨before, registered⟩

theorem moves_handlePacket {now : Nat} {packet : THPacket} {sends : List THPacket}
    (sound : Sound relay)
    (handling : handlePacket serialization stack order relay now ref packet sends = .ok after) :
    Moves relay after := by
  cases registered : relay.registered ref with
  | false =>
      simp only [handlePacket, registered, Bool.false_eq_true, if_false] at handling
      cases handling
      exact fun _ numbered => ⟨numbered, id⟩
  | true =>
      obtain ⟨middle, sent, handles, rfl, _⟩ := handlePacket_handles sound registered handling
      intro one numbered
      have numberedStill := (handles.fields one).2.trans numbered
      refine ⟨?_, fun still => ?_⟩
      · change ((middle.updateChannel ref (ended now packet)).channels one).numbered = true
        by_cases equal : one = ref
        · rw [equal, THRelay.channels_updateChannel_same, (ended_fields _ _ _).2, ← equal]
          exact numberedStill
        · rw [THRelay.channels_updateChannel_other _ _ equal]
          exact numberedStill
      · obtain ⟨same, _, sends_⟩ := handles_registered sound registered handles still
        have still : (middle.updateChannel ref (ended now packet)).registered one := still
        rw [THRelay.registered, same] at still
        exact sends_.registered.symm.trans still

theorem sound_step (serialization : NSJSONSerialization) (stack : StackBytes) (order : ByteOrder)
    (sound : Sound relay) (event : Event) :
    Sound (step serialization stack order relay event) ∧
      Moves relay (step serialization stack order relay event) := by
  have stays : Moves relay relay := fun _ numbered => ⟨numbered, id⟩
  unfold step
  cases performed : perform serialization stack order relay event with
  | error fault => exact ⟨sound, stays⟩
  | ok after =>
      change Sound after ∧ Moves relay after
      cases event with
      | sendPacket now packet => exact sound_sendPacket sound performed
      | handlePacket now ref packet sends =>
          exact ⟨sound_handlePacket sound performed, moves_handlePacket sound performed⟩
      | release index nextChannelId =>
          unfold perform at performed
          dsimp only at performed
          split at performed
          · cases performed
            exact ⟨sound, stays⟩
          · rename_i ref found
            cases performed
            obtain ⟨opens, quiet⟩ := sound_release sound found nextChannelId
            exact ⟨opens, moves_quiet quiet⟩
      | setLine identity nextChannelId =>
          cases performed
          exact ⟨sound_relined sound _, stays⟩
      | setAsking asking =>
          cases performed
          exact ⟨⟨sound.made, sound.held, sound.pending, sound.nodup, sound.peer⟩, stays⟩
      | leaves ref =>
          cases performed
          obtain ⟨left, quiet⟩ := sound_leaves sound ref
          exact ⟨left, moves_quiet quiet⟩

end Steps

end Telehash.ViaRelay
