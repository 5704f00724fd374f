import Telehash.UnreliableChannel
import Telehash.Runs

/-!
The queue of an unreliable channel. Outside the Open state packets are kept
back; on the way into it the channel sends all it kept, so the buffer of an open
channel is empty and nothing overtakes.
-/

namespace Telehash.UnreliableQueue
open Foundation Packet Channel UnreliableChannel THUnreliableChannel Runs

inductive Event where
  | sendPacket (now : Nat) (packet : THPacket)
  | setState (state : THChannelState)

def step (channel : THUnreliableChannel) : Event → THUnreliableChannel
  | .sendPacket now packet => channel.sendPacket now packet
  | .setState state => channel.setState state

def passed : List Event → List THPacket
  | [] => []
  | .sendPacket _ packet :: rest => packet :: passed rest
  | .setState _ :: rest => passed rest

def addressed (channelId : Nat) (packet : THPacket) : THPacket :=
  packet.setObject (.number channelId) "c"

/-- Nothing ends or fails the channel. -/
def Live : Event → Prop
  | .sendPacket _ _ => True
  | .setState state => ¬ state.Halted

theorem flushed_eq (packets : List THPacket) (channel : THUnreliableChannel) :
    (packets.foldl realSend channel).channelId = channel.channelId ∧
      (packets.foldl realSend channel).state = channel.state ∧
      (packets.foldl realSend channel).packetBuffer = channel.packetBuffer ∧
      (packets.foldl realSend channel).outbox = channel.outbox ++ packets := by
  induction packets generalizing channel with
  | nil => exact ⟨rfl, rfl, rfl, (List.append_nil _).symm⟩
  | cons packet rest ih =>
      obtain ⟨id, state, buffer, outbox⟩ := ih (channel.realSend packet)
      refine ⟨id, state, buffer, ?_⟩
      rw [List.foldl_cons, outbox]
      simp [realSend]

/-- Opening a channel sends what it had kept back. -/
theorem setState_opened (channel : THUnreliableChannel) :
    (channel.setState .opened).channelId = channel.channelId ∧
      (channel.setState .opened).state = .opened ∧ (channel.setState .opened).packetBuffer = [] ∧
      (channel.setState .opened).outbox = channel.outbox ++ channel.packetBuffer := by
  rw [setState_eq, if_pos rfl]
  exact flushed_eq channel.packetBuffer { channel with state := .opened, packetBuffer := [] }

/-- Everything passed is handed on or kept back, in this order; an open channel
keeps nothing back. -/
structure Queued (channelId : Nat) (given : List THPacket) (channel : THUnreliableChannel) :
    Prop where
  id : channel.channelId = channelId
  alive : ¬ channel.state.Halted
  whole : channel.outbox ++ channel.packetBuffer = given.map (addressed channelId)
  flushed : channel.state = .opened → channel.packetBuffer = []

theorem queued_send {channelId : Nat} {given : List THPacket} {channel : THUnreliableChannel}
    (queued : Queued channelId given channel) (now : Nat) (packet : THPacket) :
    Queued channelId (given ++ [packet]) (channel.sendPacket now packet) := by
  obtain ⟨id, alive, whole, flushed⟩ := queued
  simp only [sendPacket, alive, ↓reduceIte, adoptType, sendAddressed, id]
  by_cases open_ : channel.state = .opened
  · -- the buffer of an open channel is empty: the packet overtakes none
    rw [if_pos open_]
    refine ⟨rfl, alive, ?_, fun _ => flushed open_⟩
    simp [← whole, realSend, flushed open_, addressed]
  · rw [if_neg open_]
    exact ⟨rfl, alive, by simp [← whole, addressed], fun opened_ => absurd opened_ open_⟩

theorem queued_setState {channelId : Nat} {given : List THPacket} {channel : THUnreliableChannel}
    (queued : Queued channelId given channel) {state : THChannelState} (live : ¬ state.Halted) :
    Queued channelId given (channel.setState state) := by
  by_cases open_ : state = .opened
  · subst open_
    obtain ⟨id, same, empty, outbox⟩ := setState_opened channel
    refine ⟨id.trans queued.id, by rw [same]; exact live, ?_, fun _ => empty⟩
    rw [empty, outbox, List.append_nil]
    exact queued.whole
  · rw [setState_eq, if_neg open_]
    exact ⟨queued.id, live, queued.whole, fun opened => absurd opened open_⟩

theorem queued_run {channelId : Nat} {given : List THPacket} {channel : THUnreliableChannel}
    (queued : Queued channelId given channel) (events : List Event)
    (live : ∀ event ∈ events, Live event) :
    Queued channelId (given ++ passed events) (run step channel events) := by
  induction events generalizing given channel with
  | nil => simpa [passed] using queued
  | cons event rest ih =>
      obtain ⟨now, later⟩ := List.forall_mem_cons.mp live
      cases event with
      | sendPacket time packet =>
          have onward := ih (queued_send queued time packet) later
          rw [List.append_assoc, List.singleton_append] at onward
          exact onward
      | setState state => exact ih (queued_setState queued now) later

/-- While the channel lives, what is handed on is the beginning of what was
passed, and all of it in the Open state. -/
theorem queue_lossless (channelId : Nat) (delegate : THChannelDelegate) (events : List Event)
    (live : ∀ event ∈ events, Live event) :
    (run step (initToIdentity channelId delegate) events).outbox <+:
        (passed events).map (addressed channelId) ∧
      ((run step (initToIdentity channelId delegate) events).state = .opened →
        (run step (initToIdentity channelId delegate) events).outbox =
          (passed events).map (addressed channelId)) ∧
      ∀ packet ∈ (run step (initToIdentity channelId delegate) events).outbox,
        packet.json.isSome → packet.objectForKey "c" = some (.number channelId) := by
  have start : Queued channelId [] (initToIdentity channelId delegate) :=
    ⟨rfl, by simp [initToIdentity, THChannelState.Halted], rfl, fun _ => rfl⟩
  have queued := queued_run start events live
  rw [List.nil_append] at queued
  have leading : (run step (initToIdentity channelId delegate) events).outbox <+:
      (passed events).map (addressed channelId) := ⟨_, queued.whole⟩
  refine ⟨leading, fun open_ => ?_, fun packet member json => ?_⟩
  · rw [← queued.whole, queued.flushed open_, List.append_nil]
  · obtain ⟨original, _, rfl⟩ := List.mem_map.mp (leading.subset member)
    rw [addressed, setObject_json_isSome] at json
    exact objectForKey_setObject_same original "c" _ json

def hello : THPacket := { THPacket.new with body := some [104, 105] }

def stop : THPacket := { THPacket.new with body := some [98, 121, 101] }

theorem queue_lossless_paused :
    (run step (initToIdentity 1 .application) [.setState .opened, .sendPacket 5 hello,
      .setState .paused, .sendPacket 6 stop, .setState .opened]).outbox =
      [addressed 1 hello, addressed 1 stop] := by
  have live : ∀ event ∈ [Event.setState .opened, .sendPacket 5 hello, .setState .paused,
      .sendPacket 6 stop, .setState .opened], Live event := by
    simp [Live, THChannelState.Halted]
  exact (queue_lossless 1 .application _ live).2.1 (by decide)

end Telehash.UnreliableQueue
