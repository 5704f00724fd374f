import Telehash.LineDispatch
import Telehash.PacketCodec

/-!
A packet on its way through a relay: THRelay.m at the two ends and
THPeerRelay.m between them, on unreliable channels that are open. What a
channel hands to `toIdentity` is what the line at the other end of the leg
reads, encryption being transparent. Which channel a relay answers on later and
the path a bridge adds are left out.
-/

namespace Telehash.RelayPath
open Association Foundation Packet PacketCodec CipherSet Channel UnreliableChannel LineDispatch

/-- The legs of a peer relay: to the end that asked for it and to the other. -/
inductive Leg where
  | peer
  | connect
  deriving DecidableEq

def Leg.other : Leg → Leg
  | .peer => .connect
  | .connect => .peer

structure THPeerRelay where
  peerChannel : THUnreliableChannel
  connectChannel : THUnreliableChannel

namespace THPeerRelay

def channel (relay : THPeerRelay) : Leg → THUnreliableChannel
  | .peer => relay.peerChannel
  | .connect => relay.connectChannel

def outPacket (packet : THPacket) : THPacket :=
  { THPacket.new with
    body := packet.body
    jsonLength := packet.jsonLength }

/-- `channel:handlePacket:` for a packet that came in on one leg, as a change
to the channel of the other. -/
def channelHandlePacket (now : Nat) (packet : THPacket) (outward : THUnreliableChannel) :
    THUnreliableChannel :=
  outward.sendPacket now (outPacket packet)

end THPeerRelay

/-- What THRelay makes of a packet: the one handed to the switch, and whether a
bridge is started. -/
structure Relayed where
  packet : THPacket
  bridge : Bool

/-- The packet a call on a channel hands to `toIdentity`. -/
def handedOver (send : THUnreliableChannel → THUnreliableChannel) (channel : THUnreliableChannel) :
    Option THPacket :=
  (send { channel with outbox := [] }).outbox.head?

variable (serialization : NSJSONSerialization) (stack : StackBytes)

/-- `sendPacket:` of THRelay with its channel at hand. -/
def relaySendPacket (now : Nat) (packet : THPacket) (peerChannel : THUnreliableChannel) :
    THUnreliableChannel :=
  peerChannel.sendPacket now { THPacket.new with body := some (encode serialization packet) }

/-- `channel:handlePacket:` of THRelay. -/
def relayHandlePacket (packet : THPacket) : Except Fault (Option Relayed) := do
  match ← packetData serialization stack (packet.body.getD []) with
  | none => return none
  | some relayedPacket =>
      return some ⟨{ relayedPacket with returnPath := none },
        (packet.objectForKey "bridge").isSome || (relayedPacket.objectForKey "json").isSome⟩

/-- The packet as the channel gives it to its delegate, if it does. -/
def toDelegate (channel : THUnreliableChannel) (now : Nat) (packet : THPacket) : Option THPacket :=
  let reopened := if opensAgain packet then channel.setState .opened else channel
  if (reopened.superHandlePacket .none now packet).state = .opening then none else some packet

/-- The line's way to a channel it knows, for the types it does not take itself. -/
def toChannel (channel : THUnreliableChannel) (now : Nat) (innerPacket : THPacket) :
    Except Fault (Option THPacket) :=
  match channelIdOf innerPacket with
  | none => .ok none
  | some channelId => do
      let channelType ← readText (innerPacket.objectForKey "type")
      if channelType ∈ [some "seek", some "peer", some "connect"] ∨ channelId ≠ channel.channelId
      then return none
      else return toDelegate channel now innerPacket

/-- One leg: written on one side, read on the other, up to the channel's delegate. -/
def leg (now : Nat) (sent : Option THPacket) (channel : THUnreliableChannel) :
    Except Fault (Option THPacket) :=
  match sent with
  | none => .ok none
  | some packet => do
      match ← packetData serialization stack (encode serialization packet) with
      | none => return none
      | some innerPacket => toChannel channel now innerPacket

/-- From THRelay on one side over both legs to THRelay on the other. -/
def throughRelay (near far : THUnreliableChannel) (relay : THPeerRelay) (arriving : Leg) (now : Nat)
    (packet : THPacket) : Except Fault (Option Relayed) := do
  let sent := handedOver (relaySendPacket serialization now packet) near
  match ← leg serialization stack now sent (relay.channel arriving) with
  | none => return none
  | some arrived =>
      let forwarded := handedOver (THPeerRelay.channelHandlePacket now arrived)
        (relay.channel arriving.other)
      match ← leg serialization stack now forwarded far with
      | none => return none
      | some reached => relayHandlePacket serialization stack reached

/-! ## One leg -/

/-- The JSON an unreliable channel leaves on a packet that has none of its own. -/
def channelJson (channelId : Nat) : JsonDictionary :=
  Dictionary.empty.insert "c" (.number channelId)

def textLength (channelId : Nat) : Nat :=
  (serialization.dataWithJSONObject (channelJson channelId)).length

section Legs
variable {serialization stack}

theorem handedOver_opened {channel : THUnreliableChannel} (opened : channel.state = .opened)
    (now : Nat) (packet : THPacket) :
    handedOver (fun channel => channel.sendPacket now packet) channel =
      some (packet.setObject (.number channel.channelId) "c") := by
  simp [handedOver, THUnreliableChannel.sendPacket, THChannelState.Halted,
    THUnreliableChannel.sendAddressed, THUnreliableChannel.adoptType,
    THUnreliableChannel.realSend, opened]

theorem toChannel_same {channel : THUnreliableChannel} {now : Nat} {packet reached : THPacket}
    (given : toChannel channel now packet = .ok (some reached)) : reached = packet := by
  unfold toChannel at given
  split at given
  · cases given
  · obtain ⟨channelType, _, given⟩ := (bind_ok_iff _ _ _).mp given
    split at given
    · cases given
    · have handed : toDelegate channel now packet = some reached := Except.ok.inj given
      unfold toDelegate at handed
      generalize (if opensAgain packet then channel.setState .opened else channel) = reopened
        at handed
      dsimp only at handed
      split at handed
      · cases handed
      · exact (Option.some.inj handed).symm

theorem toChannel_addressed {channel : THUnreliableChannel} (opened : channel.state = .opened)
    (now : Nat) (body : Data) (jsonLength : Nat) :
    toChannel channel now ⟨some (channelJson channel.channelId), some body, jsonLength, none⟩ =
      .ok (some ⟨some (channelJson channel.channelId), some body, jsonLength, none⟩) := by
  have bare : ∀ key, key ≠ "c" → (channelJson channel.channelId).lookup key = none := by
    intro key other
    rw [channelJson, lookup_insert_other _ _ _ _ other, lookup_empty]
  have addressed : (channelJson channel.channelId).lookup "c" =
      some (.number channel.channelId) := lookup_insert_same _ _ _
  simp [toChannel, channelIdOf, THPacket.objectForKey, addressed, bare, readText, toDelegate,
    opensAgain, PacketBuffer.seqOf, THUnreliableChannel.superHandlePacket, opened]

theorem channelJson_filled (channelId : Nat) : (channelJson channelId).count ≠ 0 := by
  simp [channelJson, Dictionary.count, Dictionary.insert, Dictionary.empty, put]

theorem encode_channelJson (channelId jsonLength : Nat) (body : Data) :
    encode serialization ⟨some (channelJson channelId), some body, jsonLength, none⟩ =
      header (max (textLength serialization channelId) jsonLength) ++
        serialization.dataWithJSONObject (channelJson channelId) ++ body := by
  have text : encodedJSON serialization
        ⟨some (channelJson channelId), some body, jsonLength, none⟩ =
      serialization.dataWithJSONObject (channelJson channelId) :=
    encodedJSON_text serialization _ _ rfl (channelJson_filled channelId)
  simp [encode, text, textLength]

/-- A header no longer than the text leaves the text its own length. -/
theorem packetData_channelJson {channelId : Nat}
    (written : Written serialization (channelJson channelId)) (body : Data) {jsonLength : Nat}
    (covered : jsonLength ≤ textLength serialization channelId) :
    packetData serialization stack
        (encode serialization ⟨some (channelJson channelId), some body, jsonLength, none⟩) =
      .ok (some ⟨some (channelJson channelId), some body,
        textLength serialization channelId, none⟩) := by
  have unmarked : encode serialization
        ⟨some (channelJson channelId), some body, jsonLength, none⟩ =
      encode serialization ⟨some (channelJson channelId), some body, 0, none⟩ :=
    encode_covered serialization rfl (channelJson_filled channelId) covered
  rw [unmarked, encode_json serialization stack _ (channelJson channelId) rfl rfl
    (channelJson_filled channelId) written.fits written.parses]
  simp [readBack, channelJson_filled, textLength]

variable (stack) in
theorem leg_intact {channel : THUnreliableChannel} (opened : channel.state = .opened)
    (written : Written serialization (channelJson channel.channelId)) (now : Nat) (body : Data)
    {jsonLength : Nat} (covered : jsonLength ≤ textLength serialization channel.channelId) :
    leg serialization stack now
        (some ⟨some (channelJson channel.channelId), some body, jsonLength, none⟩) channel =
      .ok (some ⟨some (channelJson channel.channelId), some body,
        textLength serialization channel.channelId, none⟩) := by
  unfold leg
  simp only [packetData_channelJson written body covered, ok_bind]
  exact toChannel_addressed opened now body _

/-- Under a header longer than the text the body arrives without its first bytes. -/
theorem leg_cuts {channel : THUnreliableChannel} {now channelId jsonLength : Nat} {body : Data}
    {reached : THPacket} (written : Written serialization (channelJson channelId))
    (fits : jsonLength ≤ 65535)
    (longer : textLength serialization channelId < jsonLength)
    (given : leg serialization stack now
      (some ⟨some (channelJson channelId), some body, jsonLength, none⟩) channel =
        .ok (some reached)) :
    (reached.body.getD []).length < body.length := by
  unfold leg at given
  obtain ⟨read, decoded, given⟩ := (bind_ok_iff _ _ _).mp given
  cases read with
  | none => cases given
  | some innerPacket =>
      rw [encode_channelJson, Nat.max_eq_right (Nat.le_of_lt longer)] at decoded
      obtain ⟨inside, _, cut⟩ := packetData_accepted serialization stack decoded
      have text : 2 ≤ textLength serialization channelId := written.fits.1
      rw [List.append_assoc, headerValue_header stack _ _ (by omega),
        jsonBytes_long _ (by omega)] at inside cut
      rw [toChannel_same given, cut]
      have whole : (header jsonLength ++
          (serialization.dataWithJSONObject (channelJson channelId) ++ body)).length =
          2 + (textLength serialization channelId + body.length) := by
        simp only [List.length_append, length_header, textLength]
      rw [whole] at inside
      rw [Option.getD_some, List.length_drop, whole]
      omega

end Legs

/-! ## Both legs -/

/-- An open or a line packet as the switch builds it: no JSON, header 1 or 0. -/
def OpenOrLine (packet : THPacket) : Prop :=
  packet.json = some .empty ∧ (packet.jsonLength = 0 ∨ packet.jsonLength = 1)

/-- The channels of both legs are open, each under one id at its two ends. -/
structure InUse (near far : THUnreliableChannel) (relay : THPeerRelay) (arriving : Leg) : Prop where
  nearId : (relay.channel arriving).channelId = near.channelId
  farId : far.channelId = (relay.channel arriving.other).channelId
  nearOpened : near.state = .opened
  arrivingOpened : (relay.channel arriving).state = .opened
  outwardOpened : (relay.channel arriving.other).state = .opened
  farOpened : far.state = .opened

/-- The switch behind the far relay is handed a packet like the one sent. -/
def Intact (packet : THPacket) (result : Except Fault (Option Relayed)) : Prop :=
  ∃ relayed, result = .ok (some relayed) ∧ relayed.packet.jsonLength = packet.jsonLength ∧
    relayed.packet.body.getD [] = packet.body.getD []

section Paths
variable {serialization} {near far : THUnreliableChannel} {relay : THPeerRelay} {arriving : Leg}
  {packet : THPacket}

/-- The first leg is always intact; what remains are the second one and the
reading of the packet inside. -/
theorem throughRelay_second_leg (inUse : InUse near far relay arriving)
    (written : Written serialization (channelJson near.channelId)) (now : Nat) :
    throughRelay serialization stack near far relay arriving now packet = (do
      match ← leg serialization stack now
          (some ⟨some (channelJson far.channelId), some (encode serialization packet),
            textLength serialization near.channelId, none⟩) far with
      | none => return none
      | some reached => relayHandlePacket serialization stack reached) := by
  have sent : handedOver (relaySendPacket serialization now packet) near =
      some ⟨some (channelJson near.channelId), some (encode serialization packet), 0, none⟩ :=
    handedOver_opened inUse.nearOpened now _
  have arrives := leg_intact stack inUse.arrivingOpened
    (by rw [inUse.nearId]; exact written) now (encode serialization packet)
    (Nat.zero_le (textLength serialization (relay.channel arriving).channelId))
  rw [inUse.nearId] at arrives
  have forwarded : handedOver (THPeerRelay.channelHandlePacket now
        ⟨some (channelJson near.channelId), some (encode serialization packet),
          textLength serialization near.channelId, none⟩) (relay.channel arriving.other) =
      some ⟨some (channelJson far.channelId), some (encode serialization packet),
        textLength serialization near.channelId, none⟩ := by
    rw [inUse.farId]
    exact handedOver_opened inUse.outwardOpened now _
  unfold throughRelay
  simp only [sent, arrives, ok_bind, forwarded]

/-- The packet inside reads back, unless it is an empty poke. -/
theorem relayHandlePacket_encoded (sent : OpenOrLine packet) (channelId jsonLength : Nat) :
    Intact packet (relayHandlePacket serialization stack
        ⟨some (channelJson channelId), some (encode serialization packet), jsonLength, none⟩) ↔
      ¬ (packet.jsonLength = 0 ∧ packet.body.getD [] = []) := by
  have decoded := encode_plain serialization stack packet .empty sent.1 sent.2 rfl
  unfold relayHandlePacket
  rw [Option.getD_some, decoded]
  by_cases poke : packet.body.getD [] = [] ∧ packet.jsonLength = 0
  · have nothing : readBack serialization packet .empty = none :=
      (readBack_none_iff serialization packet .empty).mpr ⟨rfl, poke⟩
    simp [nothing, Intact, poke.1, poke.2]
  · have something : readBack serialization packet .empty =
        some ⟨none, some (packet.body.getD []), packet.jsonLength, none⟩ := by
      simp [readBack, poke, Dictionary.count, Dictionary.empty]
    simp only [something, ok_bind, pure_eq_ok]
    constructor
    · rintro _ ⟨mark, body⟩
      exact poke ⟨body, mark⟩
    · rintro _
      exact ⟨_, rfl, rfl, rfl⟩

/-- A text of the first id longer than that of the second cuts the packet. -/
theorem longer_first_id_cuts (sent : OpenOrLine packet) (inUse : InUse near far relay arriving)
    (written : Written serialization (channelJson near.channelId))
    (writtenFar : Written serialization (channelJson far.channelId))
    (longer : textLength serialization far.channelId < textLength serialization near.channelId)
    (now : Nat) :
    ¬ Intact packet (throughRelay serialization stack near far relay arriving now packet) := by
  rintro ⟨relayed, computed, _, whole⟩
  rw [throughRelay_second_leg stack inUse written now] at computed
  obtain ⟨reached, given, computed⟩ := (bind_ok_iff _ _ _).mp computed
  cases reached with
  | none => cases computed
  | some reached =>
      have cut := leg_cuts writtenFar written.fits.2 longer given
      unfold relayHandlePacket at computed
      obtain ⟨read, decoded, computed⟩ := (bind_ok_iff _ _ _).mp computed
      cases read with
      | none => cases computed
      | some relayedPacket =>
          cases computed
          obtain ⟨inside, _, body⟩ := packetData_accepted serialization stack decoded
          have plain := encodedJSON_nil serialization packet .empty sent.1 rfl
          simp only [encode, plain, List.append_nil, List.length_append, length_header] at cut
          rw [body, Option.getD_some] at whole
          rw [← whole, List.length_drop] at cut
          omega

/-- The packet comes through unharmed exactly when the text of the id it is
first sent under is no longer than that of the second, and there is a packet to
be read at all. -/
theorem relayed_intact_iff (sent : OpenOrLine packet) (inUse : InUse near far relay arriving)
    (written : Written serialization (channelJson near.channelId))
    (writtenFar : Written serialization (channelJson far.channelId))
    (now : Nat) :
    Intact packet (throughRelay serialization stack near far relay arriving now packet) ↔
      textLength serialization near.channelId ≤ textLength serialization far.channelId ∧
        ¬ (packet.jsonLength = 0 ∧ packet.body.getD [] = []) := by
  constructor
  · intro intact
    have covered : textLength serialization near.channelId ≤
        textLength serialization far.channelId := by
      by_contra longer
      exact longer_first_id_cuts stack sent inUse written writtenFar (by omega) now intact
    rw [throughRelay_second_leg stack inUse written now] at intact
    simp only [leg_intact stack inUse.farOpened writtenFar now _ covered, ok_bind] at intact
    exact ⟨covered, (relayHandlePacket_encoded stack sent _ _).mp intact⟩
  · rintro ⟨covered, present⟩
    rw [throughRelay_second_leg stack inUse written now]
    simp only [leg_intact stack inUse.farOpened writtenFar now _ covered, ok_bind]
    exact (relayHandlePacket_encoded stack sent _ _).mpr present

end Paths

/-- A platform JSON writer and reader cut down to the texts of two channel ids. -/
def channelText (channelId : Nat) : Data :=
  utf8 "\x7b\"c\":" ++ (Nat.toDigits 10 channelId).map (fun digit => UInt8.ofNat digit.toNat) ++
    utf8 "\x7d"

def fourElevenSerialization : NSJSONSerialization where
  dataWithJSONObject json :=
    match json.lookup "c" with
    | some (.number (.ofNat channelId)) => channelText channelId
    | _ => []
  JSONObjectWithData text :=
    if text = channelText 4 then some (.dictionary (channelJson 4))
    else if text = channelText 11 then some (.dictionary (channelJson 11))
    else none

theorem written_four : Written fourElevenSerialization (channelJson 4) := ⟨by decide, rfl⟩

theorem written_eleven : Written fourElevenSerialization (channelJson 11) := ⟨by decide, rfl⟩

def openedChannel (channelId : Nat) : THUnreliableChannel :=
  { initToIdentity channelId .application with state := .opened }

def fourElevenRelay : THPeerRelay := ⟨openedChannel 4, openedChannel 11⟩

def linePacket : THPacket := { THPacket.new with body := some [7, 8, 9] }

theorem linePacket_from_four_intact :
    Intact linePacket (throughRelay fourElevenSerialization ⟨0, 0⟩ (openedChannel 4)
      (openedChannel 11) fourElevenRelay .peer 0 linePacket) := by
  have inUse : InUse (openedChannel 4) (openedChannel 11) fourElevenRelay .peer :=
    ⟨rfl, rfl, rfl, rfl, rfl, rfl⟩
  exact (relayed_intact_iff ⟨0, 0⟩ ⟨rfl, Or.inl rfl⟩ inUse written_four written_eleven 0).mpr
    ⟨by decide, by decide⟩

theorem linePacket_from_eleven_cut :
    ¬ Intact linePacket (throughRelay fourElevenSerialization ⟨0, 0⟩ (openedChannel 11)
      (openedChannel 4) fourElevenRelay .connect 0 linePacket) := by
  have inUse : InUse (openedChannel 11) (openedChannel 4) fourElevenRelay .connect :=
    ⟨rfl, rfl, rfl, rfl, rfl, rfl⟩
  exact longer_first_id_cuts ⟨0, 0⟩ ⟨rfl, Or.inl rfl⟩ inUse written_eleven written_four
    (by decide) 0

end Telehash.RelayPath
