import Telehash.FinalStates
import Telehash.ReliableOutbound

/-!
The trace of a channel leaves out nothing the channel transmits and adds
nothing to it: its packets are those the channel has put on record, in order.
-/

namespace Telehash.SentTrace
open Foundation Packet PacketBuffer Channel FinalTrace ChannelTrace LineDispatch Runs

def sentIn (seen : Seen) : List THPacket :=
  seen.filterMap fun observation => match observation with
    | .did (.transmitted packet) => some packet
    | _ => none

/-- What was sent before and what the trace shows make up what is sent after. -/
def Adds (before : List THPacket) (seen : Seen) (after : List THPacket) : Prop :=
  after = before ++ sentIn seen

theorem adds_nil (sent : List THPacket) : Adds sent [] sent := (List.append_nil sent).symm

theorem Adds.append {before middle after : List THPacket} {first second : Seen}
    (earlier : Adds before first middle) (later : Adds middle second after) :
    Adds before (first ++ second) after := by
  unfold Adds sentIn at *
  rw [later, earlier, List.filterMap_append, List.append_assoc]

theorem Adds.became {before after : List THPacket} {seen : Seen} (state : THChannelState)
    (adds : Adds before seen after) : Adds before (.became state :: seen) after := adds

theorem adds_handed (delegate : Option Delegate) (packet : THPacket) (sent : List THPacket) :
    Adds sent (handed delegate packet) sent := by
  cases delegate <;> exact adds_nil sent

theorem sentIn_transmitted (packets : List THPacket) :
    sentIn (acts (packets.map .transmitted)) = packets := by
  induction packets with
  | nil => rfl
  | cons packet rest ih => exact congrArg (packet :: ·) ih

theorem adds_since {before after : List THPacket} (grown : before <+: after) :
    Adds before (acts ((after.drop before.length).map .transmitted)) after := by
  obtain ⟨more, rfl⟩ := grown
  rw [List.drop_left, Adds, sentIn_transmitted]

theorem adds_watch {Machine Event : Type} {step : Machine → Event → Machine}
    {seen : Machine → Event → Seen} {sentOf : Machine → List THPacket}
    (each : ∀ machine event, Adds (sentOf machine) (seen machine event)
      (sentOf (step machine event))) (machine : Machine) (events : List Event) :
    Adds (sentOf machine) (watch step seen machine events) (sentOf (run step machine events)) := by
  induction events generalizing machine with
  | nil => exact adds_nil _
  | cons event rest ih => exact (each machine event).append (ih (step machine event))

/-! ## Reliable channels -/

namespace Reliable
open ReliableChannel THReliableChannel ReliableTrace

def sent (channel : THReliableChannel) : List THPacket := channel.history.transmitted

theorem grown_sendPacket (channel : THReliableChannel) (packet : THPacket) :
    sent channel <+: sent (channel.sendPacket packet) :=
  ((ReliableOutbound.records_outward [] (sent channel)).sends channel packet
    ⟨List.nil_prefix, List.prefix_rfl⟩).transmitted

theorem adds_send (channel : THReliableChannel) (packet : THPacket) :
    Adds (sent channel) (seenSend channel packet) (sent (channel.sendPacket packet)) :=
  adds_since (grown_sendPacket channel packet)

theorem adds_performEnded (channel : THReliableChannel) (call : Call) :
    Adds (sent channel) (seenPerformEnded channel call) (sent (performEnded channel call)) := by
  cases call with
  | sendPacket packet => exact adds_send channel packet
  | close => exact adds_nil _

theorem adds_setEnded (channel : THReliableChannel) (delegate : Delegate) :
    Adds (sent channel) (seenSetEnded channel delegate) (sent (channel.setEnded delegate)) :=
  (adds_watch adds_performEnded { channel with state := .ended } _).became .ended

theorem adds_close (channel : THReliableChannel) (delegate : Delegate) :
    Adds (sent channel) (seenClose channel delegate) (sent (channel.close delegate)) := by
  unfold seenClose close
  split
  · exact adds_nil _
  · exact (adds_send channel endPacket).append (adds_setEnded _ delegate)

theorem adds_perform (delegate : Delegate) (channel : THReliableChannel) (call : Call) :
    Adds (sent channel) (seenPerform delegate channel call)
      (sent (perform delegate channel call)) := by
  cases call with
  | sendPacket packet => exact adds_send channel packet
  | close => exact adds_close channel delegate

theorem adds_performAll (channel : THReliableChannel) (delegate : Delegate) (calls : List Call) :
    Adds (sent channel) (seenPerformAll channel delegate calls)
      (sent (channel.performAll delegate calls)) :=
  adds_watch (adds_perform delegate) channel calls

theorem adds_setState (channel : THReliableChannel) (delegate : Delegate)
    (state : THChannelState) :
    Adds (sent channel) (seenSetState channel delegate state)
      (sent (channel.setState delegate state)) :=
  (adds_performAll { channel with state := state } delegate _).became state

theorem adds_superHandlePacket (channel : THReliableChannel) (delegate : Delegate)
    (packet : THPacket) :
    Adds (sent channel) (seenSuperHandlePacket channel delegate packet)
      (sent (channel.superHandlePacket delegate packet)) := by
  unfold seenSuperHandlePacket superHandlePacket
  cases packet.objectForKey "err" with
  | none => exact adds_nil _
  | some err =>
      exact (adds_performAll channel delegate _).append (adds_setState _ delegate .errored)

theorem grown_outOfOrder (channel : THReliableChannel) :
    sent channel <+: sent channel.outOfOrder := by
  unfold outOfOrder
  split
  · exact grown_sendPacket channel _
  · exact List.prefix_rfl

theorem grown_handleMiss (channel : THReliableChannel) (packet : THPacket) :
    sent channel <+: sent (channel.handleMiss packet) := by
  unfold handleMiss
  split
  · exact List.prefix_rfl
  · rename_i miss _
    exact ((ReliableOutbound.records_outward [] (sent channel)).resends channel miss
      ⟨List.nil_prefix, List.prefix_rfl⟩).transmitted

theorem adds_deliver (delegate : Option Delegate) (nodes : List THPacketNode)
    (channel : THReliableChannel) :
    Adds (sent channel) (seenDeliver delegate nodes channel)
      (sent (deliver (asked delegate) nodes channel)) := by
  induction nodes generalizing channel with
  | nil => exact adds_nil _
  | cons front rest ih =>
      rw [seenDeliver, deliver]
      dsimp only
      split
      · exact adds_since (grown_outOfOrder channel.lookForMissing)
      · let popped := channel.lookForMissing.pop front.packet rest
        let calls := (asked delegate).handlePacket front.packet
        let after := channel.lookForMissing.handToDelegate (asked delegate) front.packet rest
        have noted : sent after = sent (popped.performAll (asked delegate) calls) := by
          show sent ((popped.performAll (asked delegate) calls).noteProcessed front.packet) = _
          unfold noteProcessed
          split <;> rfl
        have handing : Adds (sent channel) (handed delegate front.packet ++
            seenPerformAll popped (asked delegate) calls) (sent after) := by
          rw [noted]
          exact (adds_handed delegate front.packet (sent channel)).append
            (adds_performAll popped (asked delegate) calls)
        refine handing.append ?_
        split
        · exact (adds_setEnded after (asked delegate)).append (adds_close _ (asked delegate))
        · exact ih after

theorem adds_handlePacket (channel : THReliableChannel) (delegate : Option Delegate)
    (packet : THPacket) :
    Adds (sent channel) (seenHandlePacket channel delegate packet)
      (sent (channel.handlePacket (asked delegate) packet)) := by
  let failed := channel.superHandlePacket (asked delegate) packet
  let missed := (failed.sawSeq packet).handleMiss packet
  let admitted :=
    ((channel.beforeAdmission (asked delegate) packet).noteReceived packet).enqueue packet
  have resent : Adds (sent failed) (sentSince failed missed) (sent missed) :=
    adds_since (grown_handleMiss (failed.sawSeq packet) packet)
  have silent : sent admitted = sent missed := by
    show sent ((((missed.handleAck packet).adoptType packet).noteReceived packet).enqueue
      packet) = _
    unfold enqueue handleAck
    split
    · split <;> rfl
    · split <;> split <;> rfl
  have delivered := adds_deliver delegate admitted.inPacketBuffer.chain admitted
  rw [silent] at delivered
  exact ((adds_superHandlePacket channel (asked delegate) packet).append resent).append delivered

theorem adds_pass (surroundings : Surroundings) (packet : THPacket)
    (channel : THReliableChannel) :
    Adds (sent channel) (seenPass surroundings packet channel)
      (sent (passReliable surroundings packet channel)) := by
  unfold seenPass passReliable
  split
  · exact (adds_setState channel _ .opened).append (adds_handlePacket _ (some _) packet)
  · exact adds_handlePacket channel (some _) packet

end Reliable

/-! ## Unreliable channels -/

namespace Unreliable
open UnreliableChannel THUnreliableChannel UnreliableTrace

theorem grown_flush (channel : THUnreliableChannel) (packets : List THPacket) :
    channel.outbox <+: (packets.foldl realSend channel).outbox := by
  induction packets generalizing channel with
  | nil => exact List.prefix_rfl
  | cons packet rest ih => exact (List.prefix_append _ _).trans (ih (channel.realSend packet))

theorem grown_sendPacket (channel : THUnreliableChannel) (now : Nat) (packet : THPacket) :
    channel.outbox <+: (channel.sendPacket now packet).outbox := by
  unfold sendPacket sendAddressed
  split
  · exact List.prefix_rfl
  · dsimp only
    split
    · exact List.prefix_append _ _
    · exact List.prefix_rfl

theorem grown_setState (channel : THUnreliableChannel) (state : THChannelState) :
    channel.outbox <+: (channel.setState state).outbox := by
  rw [setState_eq]
  split
  · exact grown_flush { channel with state := state, packetBuffer := [] } _
  · exact List.prefix_rfl

theorem adds_send (now : Nat) (channel : THUnreliableChannel) (packet : THPacket) :
    Adds channel.outbox (seenSend now channel packet) (channel.sendPacket now packet).outbox :=
  adds_since (grown_sendPacket channel now packet)

theorem adds_setState (channel : THUnreliableChannel) (state : THChannelState) :
    Adds channel.outbox (seenSetState channel state) (channel.setState state).outbox :=
  (adds_since (grown_setState channel state)).became state

theorem adds_close (channel : THUnreliableChannel) (now : Nat) :
    Adds channel.outbox (seenClose channel now) (channel.close now).outbox := by
  unfold seenClose close
  split
  · exact adds_nil _
  · exact (adds_send now channel endPacket).append (adds_setState _ .ended)

theorem adds_perform (now : Nat) (channel : THUnreliableChannel) (call : Call) :
    Adds channel.outbox (seenPerform now channel call) (perform now channel call).outbox := by
  cases call with
  | sendPacket packet => exact adds_send now channel packet
  | close => exact adds_close channel now

theorem adds_performAll (channel : THUnreliableChannel) (now : Nat) (calls : List Call) :
    Adds channel.outbox (seenPerformAll channel now calls) (channel.performAll now calls).outbox :=
  adds_watch (adds_perform now) channel calls

theorem adds_superHandlePacket (channel : THUnreliableChannel) (delegate : Delegate) (now : Nat)
    (packet : THPacket) :
    Adds channel.outbox (seenSuperHandlePacket channel delegate now packet)
      (channel.superHandlePacket delegate now packet).outbox := by
  unfold seenSuperHandlePacket superHandlePacket
  cases packet.objectForKey "err" with
  | none => exact adds_nil _
  | some err => exact (adds_performAll channel now _).append (adds_setState _ .errored)

theorem adds_hand (channel : THUnreliableChannel) (delegate : Option Delegate) (now : Nat)
    (packet : THPacket) :
    Adds channel.outbox (seenHand channel delegate now packet)
      (hand channel (asked delegate) now packet).outbox := by
  unfold seenHand hand
  split
  · exact (adds_handed delegate packet channel.outbox).append (adds_performAll channel now _)
  · exact adds_nil _

theorem adds_handlePacket (channel : THUnreliableChannel) (delegate : Option Delegate)
    (now : Nat) (packet : THPacket) :
    Adds channel.outbox (seenHandlePacket channel delegate now packet)
      (channel.handlePacket (asked delegate) now packet).outbox := by
  let typed := (channel.superHandlePacket (asked delegate) now packet).adoptType packet
  let after := hand typed (asked delegate) now packet
  have ending : Adds after.outbox (seenEnd after now packet)
      (channel.handlePacket (asked delegate) now packet).outbox := by
    show Adds after.outbox _ (if after.state ≠ .ended ∧ isEnd packet then
      (after.setState .ended).close now else after).outbox
    unfold seenEnd
    split
    · exact (adds_setState after .ended).append (adds_close _ now)
    · exact adds_nil _
  have failing := adds_superHandlePacket channel (asked delegate) now packet
  exact (failing.append (adds_hand typed delegate now packet)).append ending

theorem adds_pass (surroundings : Surroundings) (packet : THPacket)
    (channel : THUnreliableChannel) :
    Adds channel.outbox (seenPass surroundings packet channel)
      (passUnreliable surroundings packet channel).outbox := by
  unfold seenPass passUnreliable
  split
  · exact (adds_setState channel .opened).append (adds_handlePacket _ (some _) _ packet)
  · exact adds_handlePacket channel (some _) _ packet

end Unreliable

/-! ## A channel's life -/

open FinalStates

def sent : THChannel → List THPacket
  | .reliable channel => Reliable.sent channel
  | .unreliable channel => channel.outbox

theorem adds_reliable (channel : ReliableChannel.THReliableChannel) (event : Event) :
    Adds (Reliable.sent channel) (seenReliable channel event)
      (Reliable.sent (stepReliable channel event)) := by
  cases event with
  | arrives surroundings packet =>
      simp only [seenReliable, stepReliable]
      split
      · exact Reliable.adds_pass surroundings packet channel
      · exact adds_nil _
  | sendPacket now packet => exact Reliable.adds_send channel packet
  | close surroundings => exact Reliable.adds_close channel _
  | ackPing =>
      refine adds_since ?_
      simp only [ReliableChannel.THReliableChannel.ackPing]
      split
      · exact Reliable.grown_sendPacket channel _
      · exact List.prefix_rfl
  | openLine =>
      simp only [seenReliable, stepReliable]
      split
      · exact adds_since (List.prefix_append _ _)
      · exact adds_nil _
  | closeChannels surroundings =>
      simp only [seenReliable, stepReliable]
      split
      · exact Reliable.adds_setState channel _ .ended
      · exact adds_nil _

theorem adds_unreliable (channel : UnreliableChannel.THUnreliableChannel) (event : Event) :
    Adds channel.outbox (seenUnreliable channel event) (stepUnreliable channel event).outbox := by
  cases event with
  | arrives surroundings packet =>
      simp only [seenUnreliable, stepUnreliable]
      split
      · exact Unreliable.adds_pass surroundings packet channel
      · exact adds_nil _
  | sendPacket now packet => exact Unreliable.adds_send now channel packet
  | close surroundings => exact Unreliable.adds_close channel _
  | ackPing | openLine => exact adds_nil _
  | closeChannels surroundings =>
      simp only [seenUnreliable, stepUnreliable]
      split
      · exact Unreliable.adds_setState channel .ended
      · exact adds_nil _

theorem adds_step (channel : THChannel) (event : Event) :
    Adds (sent channel) (seen channel event) (sent (step channel event)) := by
  cases channel with
  | reliable channel => exact adds_reliable channel event
  | unreliable channel => exact adds_unreliable channel event

theorem adds_birth (origin : Origin) : Adds [] (seenBirth origin) (sent (born origin)) := by
  cases origin with
  | reliable surroundings channelId early =>
      exact (Reliable.adds_performAll (ReliableChannel.initToIdentity channelId) _ _).append
        (Reliable.adds_setState _ _ .opened)
  | unreliable surroundings channelId delegate early =>
      exact (Unreliable.adds_performAll
        (UnreliableChannel.initToIdentity channelId delegate) _ _).append
          (Unreliable.adds_setState _ .opened)
  | made surroundings channelId type packet =>
      simp only [seenBirth, born]
      split
      · exact ((Reliable.adds_handlePacket _ none packet).append
          (Reliable.adds_setState _ .none .opened)).append (Reliable.adds_performAll _ _ _)
      · exact ((Unreliable.adds_handlePacket _ none _ packet).append
          (Unreliable.adds_setState _ .opened)).append (Unreliable.adds_performAll _ _ _)

/-- What a channel has transmitted in its life is what the trace of it shows. -/
theorem sent_life (origin : Origin) (events : List Event) :
    sent (run step (born origin) events) = sentIn (seenLife origin events) :=
  (adds_birth origin).append (adds_watch adds_step (born origin) events)

end Telehash.SentTrace
