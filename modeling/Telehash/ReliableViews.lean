import Telehash.ReliableChannel

/-!
The two halves of a reliable channel. Sending, closing and failing leave the
incoming half alone, so a delegate that never re-enters `handlePacket:` cannot
disturb it. A property of the outgoing half that survives each primitive change
survives everything a delegate can do.
-/

namespace Telehash.ReliableViews
open Foundation Packet PacketBuffer Channel ReliableChannel THReliableChannel

structure Inbound where
  inPacketBuffer : THPacketBuffer
  lastProcessed : Nat
  nextExpectedSequence : Nat
  received : List THPacket
  delivered : List THPacket

structure Outbound where
  state : THChannelState
  sequence : Nat
  outPacketBuffer : THPacketBuffer
  lastAck : Nat
  lastProcessed : Nat
  passed : List THPacket
  numbered : List THPacket
  transmitted : List THPacket

def inbound (channel : THReliableChannel) : Inbound where
  inPacketBuffer := channel.inPacketBuffer
  lastProcessed := channel.lastProcessed
  nextExpectedSequence := channel.nextExpectedSequence
  received := channel.history.received
  delivered := channel.history.delivered

def outbound (channel : THReliableChannel) : Outbound where
  state := channel.state
  sequence := channel.sequence
  outPacketBuffer := channel.outPacketBuffer
  lastAck := channel.lastAck
  lastProcessed := channel.lastProcessed
  passed := channel.history.passed
  numbered := channel.history.numbered
  transmitted := channel.history.transmitted

/-- A property the calls of a delegate keep: what it sends, the two final
states, and leaving the channel table. -/
structure Stable (property : THReliableChannel → Prop) : Prop where
  sends : ∀ channel packet, property channel → property (channel.sendPacket packet)
  halts : ∀ channel state, state.Halted → property channel →
    property { channel with state := state }
  deregisters : ∀ channel, property channel → property channel.deregister

section Calls
variable {property : THReliableChannel → Prop} (stable : Stable property)
include stable

theorem stable_setEnded (channel : THReliableChannel) (delegate : Delegate)
    (holds : property channel) : property (channel.setEnded delegate) := by
  unfold setEnded
  have start := stable.halts channel .ended (Or.inl rfl) holds
  refine List.foldlRecOn _ performEnded start fun reached kept call _ => ?_
  cases call with
  | sendPacket packet => exact stable.sends reached packet kept
  | close => exact stable.deregisters reached kept

theorem stable_close (channel : THReliableChannel) (delegate : Delegate)
    (holds : property channel) : property (channel.close delegate) := by
  unfold close
  split
  · exact stable.deregisters channel holds
  · have sent := stable.sends channel endPacket holds
    exact stable.deregisters _ (stable_setEnded stable _ delegate sent)

theorem stable_performAll (channel : THReliableChannel) (delegate : Delegate) (calls : List Call)
    (holds : property channel) : property (channel.performAll delegate calls) := by
  induction calls generalizing channel with
  | nil => exact holds
  | cons call rest ih =>
      apply ih
      cases call with
      | sendPacket packet => exact stable.sends channel packet holds
      | close => exact stable_close stable channel delegate holds

theorem stable_superHandlePacket (channel : THReliableChannel) (delegate : Delegate)
    (packet : THPacket) (holds : property channel) :
    property (channel.superHandlePacket delegate packet) := by
  unfold superHandlePacket
  split
  · exact holds
  · rename_i err _
    have failed :=
      stable_performAll stable channel delegate (delegate.didFailWithError err) holds
    have errored := stable.halts _ .errored (Or.inr rfl) failed
    exact stable.deregisters _ (stable_performAll stable _ delegate _ errored)

theorem stable_outOfOrder (channel : THReliableChannel) (holds : property channel) :
    property channel.outOfOrder := by
  unfold outOfOrder
  split
  · exact stable.sends channel _ holds
  · exact holds

end Calls

@[simp] theorem inbound_sendPacket (channel : THReliableChannel) (packet : THPacket) :
    inbound (channel.sendPacket packet) = inbound channel := by
  obtain ⟨_, _, _, _, _, _, _, sent⟩ := sendPacket_eq channel packet
  rw [sent]
  rfl

@[simp] theorem inbound_deregister (channel : THReliableChannel) :
    inbound channel.deregister = inbound channel := rfl

theorem stable_inbound (view : Inbound) : Stable fun channel => inbound channel = view where
  sends channel packet same := by rw [inbound_sendPacket, same]
  halts _ _ _ same := same
  deregisters _ same := same

@[simp] theorem inbound_performAll (channel : THReliableChannel) (delegate : Delegate)
    (calls : List Call) : inbound (channel.performAll delegate calls) = inbound channel :=
  stable_performAll (stable_inbound _) channel delegate calls rfl

@[simp] theorem inbound_setEnded (channel : THReliableChannel) (delegate : Delegate) :
    inbound (channel.setEnded delegate) = inbound channel :=
  stable_setEnded (stable_inbound _) channel delegate rfl

@[simp] theorem inbound_close (channel : THReliableChannel) (delegate : Delegate) :
    inbound (channel.close delegate) = inbound channel :=
  stable_close (stable_inbound _) channel delegate rfl

@[simp] theorem inbound_setState (channel : THReliableChannel) (delegate : Delegate)
    (state : THChannelState) : inbound (channel.setState delegate state) = inbound channel :=
  inbound_performAll _ _ _

@[simp] theorem inbound_outOfOrder (channel : THReliableChannel) :
    inbound channel.outOfOrder = inbound channel :=
  stable_outOfOrder (stable_inbound _) channel rfl

@[simp] theorem inbound_beforeAdmission (channel : THReliableChannel) (delegate : Delegate)
    (packet : THPacket) : inbound (channel.beforeAdmission delegate packet) = inbound channel := by
  have failed := stable_superHandlePacket (stable_inbound _) channel delegate packet rfl
  obtain ⟨_, _, _, _, changed⟩ := beforeAdmission_eq channel delegate packet
  rw [changed]
  exact failed

end Telehash.ReliableViews
