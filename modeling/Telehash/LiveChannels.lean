import Telehash.LineDispatch

/-!
A channel in the table is neither ended nor errored: whatever ends it or fails
it takes it out as well. Calls from a delegate may do so at any point.
-/

namespace Telehash.LiveChannels
open Foundation Packet PacketBuffer Channel

/-! ## Reliable channels -/

namespace Reliable
open ReliableChannel THReliableChannel

def Live (channel : THReliableChannel) : Prop := channel.registered = true → ¬ channel.state.Halted

theorem live_left {channel : THReliableChannel} (left : channel.registered = false) :
    Live channel := by
  intro registered
  rw [left] at registered
  cases registered

variable {channel : THReliableChannel} (live : Live channel)

theorem left_close (channel : THReliableChannel) (delegate : Delegate) :
    (channel.close delegate).registered = false := by
  unfold close
  split <;> rfl

include live

theorem live_sendPacket (packet : THPacket) : Live (channel.sendPacket packet) := by
  obtain ⟨_, _, _, _, _, _, _, sent⟩ := sendPacket_eq channel packet
  rw [sent]
  exact live

theorem live_perform (delegate : Delegate) (call : Call) :
    Live (perform delegate channel call) := by
  cases call with
  | sendPacket packet => exact live_sendPacket live packet
  | close => exact live_left (left_close channel delegate)

theorem live_performAll (delegate : Delegate) (calls : List Call) :
    Live (channel.performAll delegate calls) :=
  List.foldlRecOn _ (perform delegate) live fun _ reached call _ =>
    live_perform reached delegate call

omit live in
theorem live_setState (channel : THReliableChannel) (delegate : Delegate) {state : THChannelState}
    (awake : ¬ state.Halted) : Live (channel.setState delegate state) := by
  have start : Live { channel with state := state } := fun _ => awake
  exact live_performAll start delegate _

theorem live_superHandlePacket (delegate : Delegate) (packet : THPacket) :
    Live (channel.superHandlePacket delegate packet) := by
  unfold superHandlePacket
  split
  · exact live
  · exact live_left rfl

theorem live_outOfOrder : Live channel.outOfOrder := by
  unfold outOfOrder
  split
  · exact live_sendPacket live _
  · exact live

theorem live_handToDelegate (delegate : Delegate) (packet : THPacket)
    (rest : List THPacketNode) : Live (channel.handToDelegate delegate packet rest) := by
  have popped : Live (channel.pop packet rest) := live
  have performed := live_performAll popped delegate (delegate.handlePacket packet)
  obtain ⟨_, _, handed⟩ := handToDelegate_eq channel delegate packet rest
  rw [handed]
  exact performed

theorem live_deliver (delegate : Delegate) (nodes : List THPacketNode) :
    Live (deliver delegate nodes channel) := by
  induction nodes generalizing channel with
  | nil => exact live
  | cons front rest ih =>
      have looked : Live channel.lookForMissing := live
      unfold deliver
      dsimp only
      split
      · exact live_outOfOrder looked
      · split
        · exact live_left (left_close _ delegate)
        · exact ih (live_handToDelegate looked delegate front.packet rest)

theorem live_handlePacket (delegate : Delegate) (packet : THPacket) :
    Live (channel.handlePacket delegate packet) := by
  have failed := live_superHandlePacket live delegate packet
  have before : Live (channel.beforeAdmission delegate packet) := by
    obtain ⟨_, _, _, _, changed⟩ := beforeAdmission_eq channel delegate packet
    rw [changed]
    exact failed
  refine live_deliver ?_ delegate _
  obtain ⟨_, changed⟩ := enqueue_eq
    ((channel.beforeAdmission delegate packet).noteReceived packet) packet
  rw [changed]
  exact before

theorem live_passReliable (surroundings : LineDispatch.Surroundings) (packet : THPacket) :
    Live (LineDispatch.passReliable surroundings packet channel) := by
  unfold LineDispatch.passReliable
  split
  · exact live_handlePacket (live_setState channel _ (by decide)) _ packet
  · exact live_handlePacket live _ packet

end Reliable

/-! ## Unreliable channels -/

namespace Unreliable
open UnreliableChannel THUnreliableChannel

def Live (channel : THUnreliableChannel) : Prop :=
  channel.registered = true → ¬ channel.state.Halted

theorem live_left {channel : THUnreliableChannel} (left : channel.registered = false) :
    Live channel := by
  intro registered
  rw [left] at registered
  cases registered

theorem left_close (channel : THUnreliableChannel) (now : Nat) :
    (channel.close now).registered = false := by
  unfold close
  split <;> rfl

variable {channel : THUnreliableChannel} (live : Live channel)
include live

/-- Sending the end of a channel takes it out and leaves its state. -/
theorem live_realSend (packet : THPacket) : Live (channel.realSend packet) := by
  intro registered
  simp only [realSend, Bool.and_eq_true] at registered
  exact live registered.1

theorem live_sendPacket (now : Nat) (packet : THPacket) : Live (channel.sendPacket now packet) := by
  unfold sendPacket sendAddressed
  split
  · exact live
  · dsimp only
    split
    · have typed : Live ({ channel with lastOutActivity := now }.adoptType packet) := live
      exact live_realSend typed _
    · exact live

theorem live_performAll (now : Nat) (calls : List Call) : Live (channel.performAll now calls) := by
  refine List.foldlRecOn _ (perform now) live fun reached held call _ => ?_
  cases call with
  | sendPacket packet => exact live_sendPacket held now packet
  | close => exact live_left (left_close reached now)

omit live in
theorem live_setState (channel : THUnreliableChannel) {state : THChannelState}
    (awake : ¬ state.Halted) : Live (channel.setState state) := by
  rw [setState_eq]
  split
  · have start : Live { channel with state := state, packetBuffer := [] } := fun _ => awake
    exact List.foldlRecOn _ realSend start fun _ held packet _ => live_realSend held packet
  · exact fun _ => awake

theorem live_handlePacket (delegate : Delegate) (now : Nat) (packet : THPacket) :
    Live (channel.handlePacket delegate now packet) := by
  have failed : Live (channel.superHandlePacket delegate now packet) := by
    unfold superHandlePacket
    split
    · exact live
    · exact live_left rfl
  exact handlePacket_keeps failed (fun _ held => held)
    (fun _ held => live_performAll held now _) fun _ _ => live_left (left_close _ now)

theorem live_passUnreliable (surroundings : LineDispatch.Surroundings) (packet : THPacket) :
    Live (LineDispatch.passUnreliable surroundings packet channel) := by
  unfold LineDispatch.passUnreliable
  split
  · exact live_handlePacket (live_setState channel (by decide)) _ _ packet
  · exact live_handlePacket live _ _ packet

end Unreliable

end Telehash.LiveChannels
