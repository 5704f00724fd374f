import Telehash.PacketBuffer

/-!
THChannel.h and the parts of THChannel.m both kinds of channel share: the
states, the delegate and the fields a channel writes on each packet it sends.
The delegate is the application. It may answer every call with any packets to
send and may close the channel.
-/

namespace Telehash.Channel
open Foundation Packet PacketBuffer

inductive THChannelState where
  | opening
  | opened
  | paused
  | ended
  | errored
  deriving DecidableEq

/-- `sendPacket:` does nothing from these two states on. -/
def THChannelState.Halted (state : THChannelState) : Prop := state = .ended ∨ state = .errored

instance (state : THChannelState) : Decidable state.Halted := by
  unfold THChannelState.Halted; infer_instance

/-- What a delegate calls on the channel while it handles one callback. -/
inductive Call where
  | sendPacket (packet : THPacket)
  | close

structure Delegate where
  didFailWithError : Json → List Call
  didChangeStateTo : THChannelState → List Call
  handlePacket : THPacket → List Call

-- Messages to a nil delegate do nothing.
def Delegate.none : Delegate := ⟨fun _ => [], fun _ => [], fun _ => []⟩

def endPacket : THPacket := THPacket.new.setObject (.bool true) "end"

/-- A packet with a body or with JSON of its own takes a sequence number. -/
def isContent (packet : THPacket) : Bool := decide (0 < packet.jsonCount) || packet.body.isSome

def isEnd (packet : THPacket) : Bool := ((packet.objectForKey "end").getD .null).boolValue

/-- The fields `sendPacket:` writes, and no others. -/
def channelKeys : List String := ["seq", "miss", "c", "ack"]

/-- Equal but for the fields the channel writes. A nil body reads as an empty one. -/
def SameContent (left right : THPacket) : Prop :=
  (∀ key, key ∉ channelKeys → left.objectForKey key = right.objectForKey key) ∧
    left.body.getD [] = right.body.getD []

theorem sameContent_refl (packet : THPacket) : SameContent packet packet :=
  ⟨fun _ _ => rfl, rfl⟩

theorem sameContent_trans {left middle right : THPacket} (first : SameContent left middle)
    (second : SameContent middle right) : SameContent left right :=
  ⟨fun key free => (first.1 key free).trans (second.1 key free), first.2.trans second.2⟩

theorem sameContent_setObject (packet : THPacket) (value : Json) {key : String}
    (written : key ∈ channelKeys) : SameContent (packet.setObject value key) packet := by
  refine ⟨fun other free => ?_, rfl⟩
  apply objectForKey_setObject_other
  rintro rfl
  exact free written

theorem sameContent_removeObject (packet : THPacket) {key : String}
    (written : key ∈ channelKeys) : SameContent (packet.removeObject key) packet := by
  refine ⟨fun other free => ?_, rfl⟩
  apply objectForKey_removeObject_other
  rintro rfl
  exact free written

end Telehash.Channel
