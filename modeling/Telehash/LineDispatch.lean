import Telehash.CipherSet
import Telehash.ReliableChannel
import Telehash.UnreliableChannel

/-!
`handlePacket:` of THLine.m behind the decryption, with the channel table of the
line's identity, `openChannel:firstPacket:` of THSwitch.m and the link channels
of THMeshBuckets.m. Jobs of the pending-seek kind are never made, so nothing
takes a packet before the line does. The branches for seek, peer, connect and
path packets work on other identities and are parameters.
-/

namespace Telehash.LineDispatch
open Association Foundation Packet PacketBuffer CipherSet Channel UnreliableChannel
open ReliableChannel (THReliableChannel)

inductive THChannel where
  | reliable (channel : THReliableChannel)
  | unreliable (channel : THUnreliableChannel)

inductive THChannelType where
  | reliableChannel
  | unreliableChannel
  deriving DecidableEq

/-- The application: how it answers the calls of a channel and what it does
with a new one. -/
structure Application where
  delegate : Delegate
  channelReady : THChannelType → THPacket → List Call

/-- What a call meets: the time, the peers the mesh would name, the application. -/
structure Surroundings where
  now : Nat
  sees : List String
  application : Application

/-- One end of an open line and the identity it leads to. -/
structure LineSide where
  channels : Dictionary Nat THChannel
  nextChannelId : Nat
  -- by the line itself and its unreliable channels
  sent : List THPacket
  -- the channels the line made for packets of an unknown channel
  created : List (Nat × THChannelType)

structure Services where
  seek : LineSide → THPacket → Except Fault LineSide
  peer : LineSide → THPacket → Except Fault LineSide
  connect : LineSide → THPacket → Except Fault LineSide
  path : LineSide → THPacket → Except Fault LineSide

-- Ids are the natural numbers `nextChannelId` makes; no channel has another key.
def channelIdOf (packet : THPacket) : Option Nat :=
  match packet.objectForKey "c" with
  | some (.number (.ofNat channelId)) => some channelId
  | _ => none

namespace THChannel

def type : THChannel → Option Json
  | .reliable channel => channel.type
  | .unreliable channel => channel.type

end THChannel

def isLink (channel : THChannel) : Bool :=
  match channel.type with
  | some (.string type) => type = "link"
  | _ => false

namespace LineSide

/-- The entry whose channel has the type, if there is one. -/
def linkChannel (side : LineSide) : Option (Nat × THChannel) :=
  side.channels.entries.find? fun entry => isLink entry.2

/-- A channel back in its place, unless it left the table, and what it sent. -/
def store (side : LineSide) (channelId : Nat) (channel : THChannel) : LineSide :=
  match channel with
  | .reliable held =>
      { side with
        channels :=
          if held.registered then side.channels.insert channelId channel
          else side.channels.erase channelId }
  | .unreliable held =>
      { side with
        channels :=
          if held.registered then
            side.channels.insert channelId (.unreliable { held with outbox := [] })
          else side.channels.erase channelId
        sent := side.sent ++ held.outbox }

end LineSide

/-! ## The mesh as the delegate of link channels -/

def seePart (sees : List String) (packet : THPacket) : THPacket :=
  packet.setObject (.array (sees.map Json.string)) "see"

def seedPacket : THPacket := THPacket.new.setObject (.bool true) "seed"

/-- A packet on a link channel is answered when the channel has been quiet for
ten seconds; the first answer names other peers. -/
def meshHandlePacket (surroundings : Surroundings) (lastOutActivity : Nat) : List Call :=
  if lastOutActivity + 10 < surroundings.now then
    if lastOutActivity = 0 then [.sendPacket (seePart surroundings.sees seedPacket)]
    else [.sendPacket seedPacket]
  else []

def meshDelegate (surroundings : Surroundings) (lastOutActivity : Nat) : Delegate where
  didFailWithError _ := []
  didChangeStateTo _ := []
  handlePacket _ := meshHandlePacket surroundings lastOutActivity

def delegateOf (surroundings : Surroundings) (channel : THUnreliableChannel) : Delegate :=
  match channel.delegate with
  | .application => surroundings.application.delegate
  | .meshBuckets => meshDelegate surroundings channel.lastOutActivity

/-! ## Channels known to the line -/

/-- The line's own test for the packet that opens a reliable channel. -/
def opensAgain (packet : THPacket) : Bool :=
  seqOf packet = some 0 && (THReliableChannel.ackOf packet).getD 0 = 0

def passReliable (surroundings : Surroundings) (packet : THPacket) (channel : THReliableChannel) :
    THReliableChannel :=
  let delegate := surroundings.application.delegate
  (if opensAgain packet then channel.setState delegate .opened else channel).handlePacket
    delegate packet

def passUnreliable (surroundings : Surroundings) (packet : THPacket)
    (channel : THUnreliableChannel) : THUnreliableChannel :=
  (if opensAgain packet then channel.setState .opened else channel).handlePacket
    (delegateOf surroundings channel) surroundings.now packet

def passPacket (surroundings : Surroundings) (packet : THPacket) : THChannel → THChannel
  | .reliable channel => .reliable (passReliable surroundings packet channel)
  | .unreliable channel => .unreliable (passUnreliable surroundings packet channel)

/-! ## Packets of unknown channels -/

def errPacket (channelId : Nat) : THPacket :=
  (THPacket.new.setObject (.string "Unknown channel packet type.") "err").setObject
    (.number channelId) "c"

/-- A leftover of an old session, which is ignored. -/
def Spurious (packet : THPacket) : Prop :=
  (packet.objectForKey "end").isSome ∨ (packet.objectForKey "err").isSome ∨ packet.jsonCount = 1

instance (packet : THPacket) : Decidable (Spurious packet) := by
  unfold Spurious; infer_instance

def newReliable (surroundings : Surroundings) (channelId : Nat) (type : Option Json)
    (packet : THPacket) : THReliableChannel :=
  let application := surroundings.application
  let handled := { ReliableChannel.initToIdentity channelId with type := type }.handlePacket
    .none packet
  (handled.setState .none .opened).performAll application.delegate
    (application.channelReady .reliableChannel packet)

def newUnreliable (surroundings : Surroundings) (channelId : Nat) (type : Option Json)
    (packet : THPacket) : THUnreliableChannel :=
  let application := surroundings.application
  let handled := { initToIdentity channelId .application with type := type }.handlePacket
    .none surroundings.now packet
  (handled.setState .opened).performAll surroundings.now
    (application.channelReady .unreliableChannel packet)

namespace LineSide

def noteCreated (side : LineSide) (channelId : Nat) (type : THChannelType) : LineSide :=
  { side with created := side.created ++ [(channelId, type)] }

-- An error without a type is spurious already, so no type means an answer.
def unknownChannel (side : LineSide) (surroundings : Surroundings) (channelId : Nat)
    (channelType : Option String) (packet : THPacket) : LineSide :=
  match channelType with
  | none =>
      if Spurious packet then side else { side with sent := side.sent ++ [errPacket channelId] }
  | some type =>
      if seqOf packet = some 0 then
        (side.noteCreated channelId .reliableChannel).store channelId
          (.reliable (newReliable surroundings channelId (some (.string type)) packet))
      else
        (side.noteCreated channelId .unreliableChannel).store channelId
          (.unreliable (newUnreliable surroundings channelId (some (.string type)) packet))

/-! ## Link channels -/

/-- `openChannel:firstPacket:` on the open line, without and with a packet. -/
def openId (side : LineSide) (channelId : Nat) : Nat :=
  if channelId = 0 then side.nextChannelId + 2 else channelId

def takeId (side : LineSide) (channelId : Nat) : LineSide :=
  if channelId = 0 then { side with nextChannelId := side.nextChannelId + 2 } else side

def removeLink (side : LineSide) : LineSide :=
  match side.linkChannel with
  | none => side
  | some current => { side with channels := side.channels.erase current.1 }

/-- The link branch: the channel of the packet replaces the one there is. -/
def linkBranch (side : LineSide) (surroundings : Surroundings) (channelId : Nat) : LineSide :=
  let removed := side.removeLink
  let link : THUnreliableChannel :=
    { initToIdentity (removed.openId channelId) .meshBuckets with
      state := .opened
      type := some (.string "link") }
  (removed.takeId channelId).store link.channelId (.unreliable
    (link.performAll surroundings.now (meshHandlePacket surroundings link.lastOutActivity)))

def linkPacket (sees : List String) : THPacket := seePart sees seedPacket

def linkToIdentity (side : LineSide) (surroundings : Surroundings) : LineSide :=
  match side.linkChannel with
  | some (channelId, .unreliable channel) =>
      side.store channelId (.unreliable
        { channel.sendPacket surroundings.now (linkPacket surroundings.sees) with
          delegate := .meshBuckets })
  | some (channelId, .reliable channel) =>
      side.store channelId (.reliable (channel.sendPacket (linkPacket surroundings.sees)))
  | none =>
      let link : THUnreliableChannel :=
        { initToIdentity (side.openId 0) .meshBuckets with state := .opened }
      (side.takeId 0).store link.channelId (.unreliable (link.sendPacket surroundings.now
        ((linkPacket surroundings.sees).setObject (.string "link") "type")))

/-! ## The branches of `handlePacket:` -/

variable (services : Services)

def channelBranch (side : LineSide) (surroundings : Surroundings) (channelId : Nat)
    (channelType : Option String) (packet : THPacket) : LineSide :=
  match side.channels.lookup channelId with
  | some channel => side.store channelId (passPacket surroundings packet channel)
  | none => side.unknownChannel surroundings channelId channelType packet

def handlePacket (side : LineSide) (surroundings : Surroundings) (innerPacket : THPacket) :
    Except Fault LineSide :=
  match channelIdOf innerPacket with
  | none => .ok side
  | some channelId => do
      let channelType ← readText (innerPacket.objectForKey "type")
      let known := (side.channels.lookup channelId).isSome
      if channelType = some "seek" then services.seek side innerPacket
      else if channelType = some "link" ∧ ¬ known then
        return side.linkBranch surroundings channelId
      else if channelType = some "peer" then services.peer side innerPacket
      else if channelType = some "connect" then services.connect side innerPacket
      else if channelType = some "path" ∧ ¬ known then services.path side innerPacket
      else return side.channelBranch surroundings channelId channelType innerPacket

/-- The application sends on one of its channels. -/
def sendOn (side : LineSide) (now : Nat) (channelId : Nat) (packet : THPacket) : LineSide :=
  match side.channels.lookup channelId with
  | none => side
  | some (.reliable channel) => side.store channelId (.reliable (channel.sendPacket packet))
  | some (.unreliable channel) => side.store channelId (.unreliable (channel.sendPacket now packet))

/-- The timer of a reliable channel runs out. -/
def ackPing (side : LineSide) (channelId : Nat) : LineSide :=
  match side.channels.lookup channelId with
  | some (.reliable channel) => side.store channelId (.reliable channel.ackPing)
  | _ => side

end LineSide

end Telehash.LineDispatch
