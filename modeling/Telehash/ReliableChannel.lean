import Telehash.Channel

/-!
THReliableChannel.m. The one-second timer of `checkAckPing:` is an event of its
own. The history fields record what the channel was given and gave out; no
function of the channel reads them. A packet handed to `toIdentity` is encoded
at once, so what is transmitted is the packet as it stands then.
-/

namespace Telehash.ReliableChannel
open Foundation Packet PacketBuffer Channel

structure History where
  received : List THPacket
  delivered : List THPacket
  -- content packets passed to `sendPacket:`
  passed : List THPacket
  -- packets that went out with a sequence number
  numbered : List THPacket
  transmitted : List THPacket

structure THReliableChannel where
  channelId : Nat
  state : THChannelState
  type : Option Json
  -- whether `toIdentity.channels` holds the channel under its id
  registered : Bool
  sequence : Nat
  inPacketBuffer : THPacketBuffer
  outPacketBuffer : THPacketBuffer
  lastAck : Nat
  lastProcessed : Nat
  nextExpectedSequence : Nat
  maxSeen : Nat
  missing : Option (List Nat)
  history : History

def initToIdentity (channelId : Nat) : THReliableChannel where
  channelId := channelId
  state := .opening
  type := none
  registered := true
  sequence := 0
  inPacketBuffer := .new
  outPacketBuffer := .new
  lastAck := 0
  lastProcessed := 0
  nextExpectedSequence := 0
  maxSeen := 0
  missing := none
  history := ⟨[], [], [], [], []⟩

namespace THReliableChannel

def stampSeq (channel : THReliableChannel) (packet : THPacket) : THPacket :=
  if isContent packet then packet.setObject (.number channel.sequence) "seq" else packet

def stampMiss (channel : THReliableChannel) (packet : THPacket) : THPacket :=
  match packet.objectForKey "miss", channel.missing with
  | none, some missing => packet.setObject (.array (missing.map fun seq => .number seq)) "miss"
  | _, _ => packet

def stampId (channel : THReliableChannel) (packet : THPacket) : THPacket :=
  packet.setObject (.number channel.channelId) "c"

def stampAck (channel : THReliableChannel) (packet : THPacket) : THPacket :=
  if channel.lastAck ≤ channel.lastProcessed then
    packet.setObject (.number channel.lastProcessed) "ack"
  else packet

def outgoing (channel : THReliableChannel) (packet : THPacket) : THPacket :=
  channel.stampAck (channel.stampId (channel.stampMiss (channel.stampSeq packet)))

section Stamps
variable (channel : THReliableChannel) (packet : THPacket) {key : String}

theorem stampSeq_objectForKey (other : key ≠ "seq") :
    (channel.stampSeq packet).objectForKey key = packet.objectForKey key := by
  unfold stampSeq
  split
  · exact objectForKey_setObject_other _ _ _ _ other
  · rfl

theorem stampMiss_objectForKey (other : key ≠ "miss") :
    (channel.stampMiss packet).objectForKey key = packet.objectForKey key := by
  unfold stampMiss
  split
  · exact objectForKey_setObject_other _ _ _ _ other
  · rfl

theorem stampId_objectForKey (other : key ≠ "c") :
    (channel.stampId packet).objectForKey key = packet.objectForKey key :=
  objectForKey_setObject_other _ _ _ _ other

theorem stampAck_objectForKey (other : key ≠ "ack") :
    (channel.stampAck packet).objectForKey key = packet.objectForKey key := by
  unfold stampAck
  split
  · exact objectForKey_setObject_other _ _ _ _ other
  · rfl

@[simp] theorem stampSeq_json_isSome :
    (channel.stampSeq packet).json.isSome = packet.json.isSome := by
  unfold stampSeq
  split
  · rw [setObject_json_isSome]
  · rfl

@[simp] theorem stampMiss_json_isSome :
    (channel.stampMiss packet).json.isSome = packet.json.isSome := by
  unfold stampMiss
  split
  · rw [setObject_json_isSome]
  · rfl

@[simp] theorem stampId_json_isSome :
    (channel.stampId packet).json.isSome = packet.json.isSome := by
  rw [stampId, setObject_json_isSome]

end Stamps

def notePassed (channel : THReliableChannel) (packet : THPacket) : THReliableChannel :=
  if isContent packet then
    { channel with history.passed := channel.history.passed ++ [packet] }
  else channel

/-- `sendPacket:` behind its early return. -/
def sendStamped (channel : THReliableChannel) (packet : THPacket) : THReliableChannel :=
  let stamped := channel.outgoing packet
  let hasSeq := (stamped.objectForKey "seq").isSome
  { channel with
    type := channel.type.or (packet.objectForKey "type")
    sequence :=
      if isContent packet then (channel.sequence + 1) % uintModulus else channel.sequence
    lastAck := max channel.lastAck channel.lastProcessed
    outPacketBuffer :=
      if hasSeq then channel.outPacketBuffer.push stamped else channel.outPacketBuffer
    history.numbered :=
      if hasSeq then channel.history.numbered ++ [stamped] else channel.history.numbered
    history.transmitted :=
      if channel.state = .opened then channel.history.transmitted ++ [stamped]
      else channel.history.transmitted }

def sendPacket (channel : THReliableChannel) (packet : THPacket) : THReliableChannel :=
  if channel.state.Halted then channel.notePassed packet
  else (channel.notePassed packet).sendStamped packet

def deregister (channel : THReliableChannel) : THReliableChannel :=
  { channel with registered := false }

-- On an ended channel `close` only takes the channel out of the table.
def performEnded (channel : THReliableChannel) : Call → THReliableChannel
  | .sendPacket packet => channel.sendPacket packet
  | .close => channel.deregister

def setEnded (channel : THReliableChannel) (delegate : Delegate) : THReliableChannel :=
  (delegate.didChangeStateTo .ended).foldl performEnded { channel with state := .ended }

def close (channel : THReliableChannel) (delegate : Delegate) : THReliableChannel :=
  if channel.state = .opening ∨ channel.state = .ended then channel.deregister
  else ((channel.sendPacket endPacket).setEnded delegate).deregister

def perform (delegate : Delegate) (channel : THReliableChannel) : Call → THReliableChannel
  | .sendPacket packet => channel.sendPacket packet
  | .close => channel.close delegate

def performAll (channel : THReliableChannel) (delegate : Delegate) (calls : List Call) :
    THReliableChannel :=
  calls.foldl (perform delegate) channel

def setState (channel : THReliableChannel) (delegate : Delegate) (state : THChannelState) :
    THReliableChannel :=
  { channel with state := state }.performAll delegate (delegate.didChangeStateTo state)

/-- THChannel's `handlePacket:`. -/
def superHandlePacket (channel : THReliableChannel) (delegate : Delegate) (packet : THPacket) :
    THReliableChannel :=
  match packet.objectForKey "err" with
  | none => channel
  | some err =>
      ((channel.performAll delegate (delegate.didFailWithError err)).setState
        delegate .errored).deregister

def sawSeq (channel : THReliableChannel) (packet : THPacket) : THReliableChannel :=
  { channel with maxSeen := max channel.maxSeen ((seqOf packet).getD 0) }

def withoutMiss (packet : THPacket) : THPacket := packet.removeObject "miss"

def resendMissingPackets (channel : THReliableChannel) (miss : Json) : THReliableChannel :=
  { channel with
    outPacketBuffer := channel.outPacketBuffer.mutateMissed miss withoutMiss
    history.transmitted :=
      if channel.state = .opened then
        channel.history.transmitted ++ (channel.outPacketBuffer.packetsForMiss miss).map withoutMiss
      else channel.history.transmitted }

def handleMiss (channel : THReliableChannel) (packet : THPacket) : THReliableChannel :=
  match packet.objectForKey "miss" with
  | none => channel
  | some miss => channel.resendMissingPackets miss

def ackOf (packet : THPacket) : Option Nat :=
  (packet.objectForKey "ack").map Json.unsignedIntegerValue

def handleAck (channel : THReliableChannel) (packet : THPacket) : THReliableChannel :=
  match ackOf packet with
  | none => channel
  | some ack => { channel with outPacketBuffer := channel.outPacketBuffer.clearThrough ack }

def adoptType (channel : THReliableChannel) (packet : THPacket) : THReliableChannel :=
  { channel with type := channel.type.or (packet.objectForKey "type") }

def enqueue (channel : THReliableChannel) (packet : THPacket) : THReliableChannel :=
  match seqOf packet with
  | none => channel
  | some seq =>
      if channel.lastProcessed ≤ seq then
        { channel with inPacketBuffer := channel.inPacketBuffer.push packet }
      else channel

def lookForMissing (channel : THReliableChannel) : THReliableChannel :=
  { channel with
    missing := channel.inPacketBuffer.missingSeqFrom channel.nextExpectedSequence }

def pop (channel : THReliableChannel) (packet : THPacket) (rest : List THPacketNode) :
    THReliableChannel :=
  { channel with
    inPacketBuffer := ⟨rest⟩
    history.delivered := channel.history.delivered ++ [packet] }

def noteProcessed (channel : THReliableChannel) (packet : THPacket) : THReliableChannel :=
  match seqOf packet with
  | none => channel
  | some seq =>
      { channel with lastProcessed := seq, nextExpectedSequence := (seq + 1) % uintModulus }

def outOfOrder (channel : THReliableChannel) : THReliableChannel :=
  if 0 < (channel.missing.getD []).length then channel.sendPacket .new else channel

def handToDelegate (channel : THReliableChannel) (delegate : Delegate) (packet : THPacket)
    (rest : List THPacketNode) : THReliableChannel :=
  ((channel.pop packet rest).performAll delegate
    (delegate.handlePacket packet)).noteProcessed packet

/-- The loop of `delegateHandlePackets`. The nodes are those of
`inPacketBuffer`, which nothing the delegate may call touches. -/
def deliver (delegate : Delegate) : List THPacketNode → THReliableChannel → THReliableChannel
  | [], channel => channel
  | front :: rest, channel =>
      let looked := channel.lookForMissing
      if front.seq ≠ channel.nextExpectedSequence then looked.outOfOrder
      else
        let handed := looked.handToDelegate delegate front.packet rest
        if handed.state ≠ .ended ∧ isEnd front.packet then (handed.setEnded delegate).close delegate
        else deliver delegate rest handed

def delegateHandlePackets (channel : THReliableChannel) (delegate : Delegate) :
    THReliableChannel :=
  deliver delegate channel.inPacketBuffer.chain channel

def noteReceived (channel : THReliableChannel) (packet : THPacket) : THReliableChannel :=
  { channel with history.received := channel.history.received ++ [packet] }

/-- `handlePacket:` before the packet reaches the incoming buffer. -/
def beforeAdmission (channel : THReliableChannel) (delegate : Delegate) (packet : THPacket) :
    THReliableChannel :=
  ((((channel.superHandlePacket delegate packet).sawSeq packet).handleMiss packet).handleAck
    packet).adoptType packet

def handlePacket (channel : THReliableChannel) (delegate : Delegate) (packet : THPacket) :
    THReliableChannel :=
  (((channel.beforeAdmission delegate packet).noteReceived packet).enqueue
    packet).delegateHandlePackets delegate

-- the block `checkAckPing:` leaves for one second later
def ackPing (channel : THReliableChannel) : THReliableChannel :=
  if channel.lastAck < channel.lastProcessed then channel.sendPacket .new else channel

def flushOut (channel : THReliableChannel) : THReliableChannel :=
  { channel with
    history.transmitted :=
      channel.history.transmitted ++ channel.outPacketBuffer.chain.map THPacketNode.packet }

/-! ## What a function leaves alone -/

theorem sendPacket_eq (channel : THReliableChannel) (packet : THPacket) :
    ∃ type sequence buffer ack passed numbered transmitted,
      channel.sendPacket packet = { channel with
        type := type
        sequence := sequence
        outPacketBuffer := buffer
        lastAck := ack
        history.passed := passed
        history.numbered := numbered
        history.transmitted := transmitted } := by
  unfold sendPacket notePassed
  split
  · split
    · exact ⟨_, _, _, _, _, _, _, rfl⟩
    · exact ⟨_, _, _, _, _, _, _, rfl⟩
  · split
    · exact ⟨_, _, _, _, _, _, _, rfl⟩
    · exact ⟨_, _, _, _, _, _, _, rfl⟩

@[simp] theorem state_sendPacket (channel : THReliableChannel) (packet : THPacket) :
    (channel.sendPacket packet).state = channel.state := by
  obtain ⟨_, _, _, _, _, _, _, sent⟩ := sendPacket_eq channel packet
  rw [sent]

@[simp] theorem registered_sendPacket (channel : THReliableChannel) (packet : THPacket) :
    (channel.sendPacket packet).registered = channel.registered := by
  obtain ⟨_, _, _, _, _, _, _, sent⟩ := sendPacket_eq channel packet
  rw [sent]

@[simp] theorem missing_sendPacket (channel : THReliableChannel) (packet : THPacket) :
    (channel.sendPacket packet).missing = channel.missing := by
  obtain ⟨_, _, _, _, _, _, _, sent⟩ := sendPacket_eq channel packet
  rw [sent]

theorem handleMiss_eq (channel : THReliableChannel) (packet : THPacket) :
    ∃ buffer transmitted, channel.handleMiss packet = { channel with
      outPacketBuffer := buffer
      history.transmitted := transmitted } := by
  unfold handleMiss
  split
  · exact ⟨_, _, rfl⟩
  · exact ⟨_, _, rfl⟩

theorem handleAck_eq (channel : THReliableChannel) (packet : THPacket) :
    ∃ buffer, channel.handleAck packet = { channel with outPacketBuffer := buffer } := by
  unfold handleAck
  split
  · exact ⟨_, rfl⟩
  · exact ⟨_, rfl⟩

/-- After an error has been dealt with. -/
theorem beforeAdmission_eq (channel : THReliableChannel) (delegate : Delegate)
    (packet : THPacket) : ∃ seen type buffer transmitted,
      channel.beforeAdmission delegate packet = { channel.superHandlePacket delegate packet with
        maxSeen := seen
        type := type
        outPacketBuffer := buffer
        history.transmitted := transmitted } := by
  unfold beforeAdmission
  obtain ⟨_, _, missed⟩ := handleMiss_eq
    ((channel.superHandlePacket delegate packet).sawSeq packet) packet
  rw [missed]
  obtain ⟨_, acked⟩ := handleAck_eq _ packet
  rw [acked]
  exact ⟨_, _, _, _, rfl⟩

theorem enqueue_eq (channel : THReliableChannel) (packet : THPacket) :
    ∃ buffer, channel.enqueue packet = { channel with inPacketBuffer := buffer } := by
  unfold enqueue
  split
  · exact ⟨_, rfl⟩
  · split
    · exact ⟨_, rfl⟩
    · exact ⟨_, rfl⟩

theorem noteProcessed_eq (channel : THReliableChannel) (packet : THPacket) :
    ∃ processed next, channel.noteProcessed packet = { channel with
      lastProcessed := processed
      nextExpectedSequence := next } := by
  unfold noteProcessed
  split
  · exact ⟨_, _, rfl⟩
  · exact ⟨_, _, rfl⟩

/-- After the calls of the delegate. -/
theorem handToDelegate_eq (channel : THReliableChannel) (delegate : Delegate)
    (packet : THPacket) (rest : List THPacketNode) :
    ∃ processed next, channel.handToDelegate delegate packet rest =
      { (channel.pop packet rest).performAll delegate (delegate.handlePacket packet) with
        lastProcessed := processed
        nextExpectedSequence := next } :=
  noteProcessed_eq _ packet

end THReliableChannel

/-- Everything that can happen to a channel, each with the delegate it meets then. -/
inductive Event where
  | handlePacket (delegate : Delegate) (packet : THPacket)
  | sendPacket (packet : THPacket)
  | close (delegate : Delegate)
  | setState (delegate : Delegate) (state : THChannelState)
  | ackPing
  | flushOut

def step (channel : THReliableChannel) : Event → THReliableChannel
  | .handlePacket delegate packet => channel.handlePacket delegate packet
  | .sendPacket packet => channel.sendPacket packet
  | .close delegate => channel.close delegate
  | .setState delegate state => channel.setState delegate state
  | .ackPing => channel.ackPing
  | .flushOut => channel.flushOut

end Telehash.ReliableChannel
