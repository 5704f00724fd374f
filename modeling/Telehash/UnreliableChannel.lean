import Telehash.Channel

/-!
THUnreliableChannel.m. It overrides the setter of `state`, so no delegate
hears of a change. What is handed to `toIdentity` is put into an outbox.
-/

namespace Telehash.UnreliableChannel
open Foundation Packet Channel

inductive THChannelDelegate where
  | application
  | meshBuckets
  deriving DecidableEq

structure THUnreliableChannel where
  channelId : Nat
  delegate : THChannelDelegate
  state : THChannelState
  type : Option Json
  -- whether `toIdentity.channels` holds the channel under its id
  registered : Bool
  packetBuffer : List THPacket
  lastOutActivity : Nat
  outbox : List THPacket

def initToIdentity (channelId : Nat) (delegate : THChannelDelegate) : THUnreliableChannel where
  channelId := channelId
  delegate := delegate
  state := .opening
  type := none
  registered := true
  packetBuffer := []
  lastOutActivity := 0
  outbox := []

namespace THUnreliableChannel

def deregister (channel : THUnreliableChannel) : THUnreliableChannel :=
  { channel with registered := false }

def adoptType (channel : THUnreliableChannel) (packet : THPacket) : THUnreliableChannel :=
  { channel with type := channel.type.or (packet.objectForKey "type") }

def realSend (channel : THUnreliableChannel) (packet : THPacket) : THUnreliableChannel :=
  { channel with
    outbox := channel.outbox ++ [packet]
    registered := channel.registered && !isEnd packet }

/-- The loop of `flushSend` over what the buffer holds. -/
def flushPackets : List THPacket → THUnreliableChannel → THUnreliableChannel
  | [], channel => { channel with packetBuffer := [] }
  | packet :: rest, channel =>
      if channel.state = .opened then flushPackets rest (channel.realSend packet)
      else { channel with packetBuffer := packet :: rest }

def flushSend (channel : THUnreliableChannel) : THUnreliableChannel :=
  flushPackets channel.packetBuffer channel

def setState (channel : THUnreliableChannel) (state : THChannelState) : THUnreliableChannel :=
  if state = .opened then { channel with state := state }.flushSend
  else { channel with state := state }

/-- `sendPacket:` behind its early return. -/
def sendAddressed (channel : THUnreliableChannel) (packet : THPacket) : THUnreliableChannel :=
  let addressed := packet.setObject (.number channel.channelId) "c"
  if channel.state = .opened then channel.realSend addressed
  else { channel with packetBuffer := channel.packetBuffer ++ [addressed] }

def sendPacket (channel : THUnreliableChannel) (now : Nat) (packet : THPacket) :
    THUnreliableChannel :=
  let active := { channel with lastOutActivity := now }
  if channel.state.Halted then active else (active.adoptType packet).sendAddressed packet

def close (channel : THUnreliableChannel) (now : Nat) : THUnreliableChannel :=
  if channel.state = .opening ∨ channel.state = .ended then channel.deregister
  else ((channel.sendPacket now endPacket).setState .ended).deregister

def perform (now : Nat) (channel : THUnreliableChannel) : Call → THUnreliableChannel
  | .sendPacket packet => channel.sendPacket now packet
  | .close => channel.close now

def performAll (channel : THUnreliableChannel) (now : Nat) (calls : List Call) :
    THUnreliableChannel :=
  calls.foldl (perform now) channel

/-- THChannel's `handlePacket:`. -/
def superHandlePacket (channel : THUnreliableChannel) (delegate : Delegate) (now : Nat)
    (packet : THPacket) : THUnreliableChannel :=
  match packet.objectForKey "err" with
  | none => channel
  | some err => ((channel.performAll now (delegate.didFailWithError err)).setState
      .errored).deregister

def handlePacket (channel : THUnreliableChannel) (delegate : Delegate) (now : Nat)
    (packet : THPacket) : THUnreliableChannel :=
  let typed := (channel.superHandlePacket delegate now packet).adoptType packet
  let handled :=
    if typed.state ≠ .opening then typed.performAll now (delegate.handlePacket packet) else typed
  if handled.state ≠ .ended ∧ isEnd packet then (handled.setState .ended).close now else handled

/-- Sending does not change the state, so the loop runs through the buffer. -/
theorem flushPackets_eq (packets : List THPacket) {channel : THUnreliableChannel}
    (opened : channel.state = .opened) :
    flushPackets packets channel = packets.foldl realSend { channel with packetBuffer := [] } := by
  induction packets generalizing channel with
  | nil => rfl
  | cons packet rest ih =>
      rw [flushPackets, if_pos opened, @ih (channel.realSend packet) opened]
      rfl

theorem setState_eq (channel : THUnreliableChannel) (state : THChannelState) :
    channel.setState state =
      if state = .opened then
        channel.packetBuffer.foldl realSend { channel with state := state, packetBuffer := [] }
      else { channel with state := state } := by
  unfold setState flushSend
  split
  · rename_i opened
    exact flushPackets_eq _ opened
  · rfl

/-- What each step of taking in a packet keeps is kept by the whole. -/
theorem handlePacket_keeps {Kept : THUnreliableChannel → Prop} {channel : THUnreliableChannel}
    {delegate : Delegate} {now : Nat} {packet : THPacket}
    (failed : Kept (channel.superHandlePacket delegate now packet))
    (types : ∀ reached, Kept reached → Kept (reached.adoptType packet))
    (hands : ∀ reached, Kept reached →
      Kept (reached.performAll now (delegate.handlePacket packet)))
    (ends : ∀ reached, Kept reached → Kept ((reached.setState .ended).close now)) :
    Kept (channel.handlePacket delegate now packet) := by
  have typed := types _ failed
  unfold handlePacket
  dsimp only
  generalize (channel.superHandlePacket delegate now packet).adoptType packet = typedChannel
    at typed ⊢
  by_cases started : typedChannel.state ≠ .opening
  · have handled := hands _ typed
    rw [if_pos started]
    split
    · exact ends _ handled
    · exact handled
  · rw [if_neg started]
    split
    · exact ends _ typed
    · exact typed

end THUnreliableChannel

end Telehash.UnreliableChannel
