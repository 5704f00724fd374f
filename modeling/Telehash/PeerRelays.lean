import Telehash.RelayPath
import Telehash.Runs
import Telehash.UnreliableQueue

/-!
A switch between others. On a peer request THLine.m makes a THPeerRelay of two channels,
to the end that asked and to the one asked for, and opens the second with a connect
packet. Any number of relays share the lines; identities come and go, channels end, and
other channels take their ids.
-/

namespace Telehash.PeerRelays
open Association Foundation Packet CipherSet Channel UnreliableChannel LineDispatch RelayPath Runs
open Identity (IdentityRef Parts)
open UnreliableQueue (addressed Queued queued_send queued_setState setState_opened)

abbrev RelayRef := Nat

/-- A relay with the identities at its ends. -/
structure Relay extends THPeerRelay where
  toIdentity : Leg → IdentityRef
  -- whether the channel of the leg has its id
  numbered : Leg → Bool
  connectPacket : THPacket

/-- What an identity keeps under a channel id. -/
inductive Kept where
  | relay (ref : RelayRef) (leg : Leg)
  | other
  deriving DecidableEq

structure THIdentity where
  hashname : String
  parts : Option Parts
  channels : Dictionary Nat Kept
  -- the `nextChannelId` of its current line
  currentLine : Option Nat

structure PeerSwitch where
  identities : IdentityRef → THIdentity
  -- the identities of the open lines, in the order they are enumerated
  openLines : List IdentityRef
  relays : RelayRef → Relay
  nextRelay : RelayRef
  -- the channels with a pending job
  pendingJobs : List (RelayRef × Leg)
  -- the packets each leg has given the relay, with the identity they came from
  handed : RelayRef → Leg → List (IdentityRef × THPacket)

namespace Relay

def setChannel (relay : Relay) (channel : THUnreliableChannel) : Leg → Relay
  | .peer => { relay with peerChannel := channel }
  | .connect => { relay with connectChannel := channel }

@[simp] theorem channel_setChannel_same (relay : Relay) (channel : THUnreliableChannel)
    (leg : Leg) : (relay.setChannel channel leg).channel leg = channel := by cases leg <;> rfl

@[simp] theorem channel_setChannel_other (relay : Relay) (channel : THUnreliableChannel)
    (leg : Leg) : (relay.setChannel channel leg).channel leg.other = relay.channel leg.other := by
  cases leg <;> rfl

@[simp] theorem toIdentity_setChannel (relay : Relay) (channel : THUnreliableChannel) (leg : Leg) :
    (relay.setChannel channel leg).toIdentity = relay.toIdentity := by cases leg <;> rfl

@[simp] theorem numbered_setChannel (relay : Relay) (channel : THUnreliableChannel) (leg : Leg) :
    (relay.setChannel channel leg).numbered = relay.numbered := by cases leg <;> rfl

@[simp] theorem connectPacket_setChannel (relay : Relay) (channel : THUnreliableChannel)
    (leg : Leg) : (relay.setChannel channel leg).connectPacket = relay.connectPacket := by
  cases leg <;> rfl

/-- The packet the channel of a leg is opened with. -/
def firstPacket (relay : Relay) : Leg → Option THPacket
  | .peer => none
  | .connect => some relay.connectPacket

end Relay

namespace PeerSwitch

def updateIdentity (switch : PeerSwitch) (identity : IdentityRef)
    (change : THIdentity → THIdentity) : PeerSwitch :=
  { switch with
    identities := Function.update switch.identities identity (change (switch.identities identity)) }

def updateRelay (switch : PeerSwitch) (ref : RelayRef) (change : Relay → Relay) : PeerSwitch :=
  { switch with relays := Function.update switch.relays ref (change (switch.relays ref)) }

def lineToHashname (switch : PeerSwitch) (hashname : Option String) : Option IdentityRef :=
  switch.openLines.find? fun identity => some (switch.identities identity).hashname = hashname

end PeerSwitch

/-! ## Opening the channels of a relay -/

/-- A channel whose id is 0 is given one like a channel that has none. -/
def Relay.given (relay : Relay) (leg : Leg) : Bool :=
  relay.numbered leg && decide ((relay.channel leg).channelId ≠ 0)

def Relay.openId (relay : Relay) (leg : Leg) (nextChannelId : Nat) : Nat :=
  if relay.given leg then (relay.channel leg).channelId else (nextChannelId + 2) % uintModulus

/-- The relay once the channel of a leg is open and has sent its first packet. -/
def openedRelay (now nextChannelId : Nat) (relay : Relay) (leg : Leg) : Relay :=
  let opened := { relay.channel leg with
    channelId := relay.openId leg nextChannelId }.setState .opened
  let sent := match relay.firstPacket leg with
    | none => opened
    | some packet => opened.sendPacket now packet
  { relay.setChannel sent leg with numbered := Function.update relay.numbered leg true }

/-- `channel:line:firstPacket:` for the channel of a leg. -/
def channelLine (switch : PeerSwitch) (now : Nat) (ref : RelayRef) (leg : Leg)
    (nextChannelId : Nat) : PeerSwitch :=
  let relay := switch.relays ref
  let opened := switch.updateRelay ref fun relay => openedRelay now nextChannelId relay leg
  opened.updateIdentity (relay.toIdentity leg) fun identity =>
    { identity with
      channels := identity.channels.insert (relay.openId leg nextChannelId) (.relay ref leg)
      currentLine := some
        (if relay.given leg then nextChannelId else relay.openId leg nextChannelId) }

def openChannel (switch : PeerSwitch) (now : Nat) (ref : RelayRef) (leg : Leg) : PeerSwitch :=
  match (switch.identities ((switch.relays ref).toIdentity leg)).currentLine with
  | none => { switch with pendingJobs := switch.pendingJobs ++ [(ref, leg)] }
  | some nextChannelId => channelLine switch now ref leg nextChannelId

def connectPacket (parts : Parts) (innerPacket : THPacket) : THPacket :=
  let from_ := parts.entries.map fun entry => (entry.1, Json.string entry.2)
  let named := (THPacket.new.setObject (.string "connect") "type").setObject (.object from_) "from"
  let pathed := match innerPacket.objectForKey "paths" with
    | none => named
    | some paths => named.setObject paths "paths"
  { pathed with body := innerPacket.body }

def newRelay (toIdentity target : IdentityRef) (channelId : Nat) (connectPacket : THPacket) :
    Relay where
  peerChannel := initToIdentity channelId .application
  connectChannel := initToIdentity 0 .application
  toIdentity leg := if leg = .peer then toIdentity else target
  numbered leg := decide (leg = .peer)
  connectPacket := connectPacket

/-- The branch for a packet of type peer. -/
def peerBranch (switch : PeerSwitch) (now : Nat) (toIdentity : IdentityRef) (channelId : Nat)
    (innerPacket : THPacket) : Except Fault PeerSwitch := do
  match switch.lineToHashname (← readText (innerPacket.objectForKey "peer")) with
  | none => return switch
  | some target =>
      match (switch.identities toIdentity).parts with
      | none => .error .nilArgument
      | some parts =>
          let ref := switch.nextRelay
          let made := { switch with
            relays := Function.update switch.relays ref
              (newRelay toIdentity target channelId (connectPacket parts innerPacket))
            nextRelay := ref + 1 }
          return openChannel (openChannel made now ref .peer) now ref .connect

/-! ## Packets on the channels of a relay -/

/-- `channel:handlePacket:` of THPeerRelay. A channel without an id cannot address a packet. -/
def forward (now : Nat) (packet : THPacket) (numbered : Bool) (outward : THUnreliableChannel) :
    Except Fault THUnreliableChannel :=
  if ¬numbered ∧ ¬outward.state.Halted then .error .nilArgument
  else .ok (THPeerRelay.channelHandlePacket now packet outward)

/-- The relay's part in a packet that a leg has handed it. -/
def relayPacket (switch : PeerSwitch) (now : Nat) (toIdentity : IdentityRef) (ref : RelayRef)
    (leg : Leg) (packet : THPacket) : Except Fault PeerSwitch := do
  let relay := switch.relays ref
  let outward ← forward now packet (relay.numbered leg.other) (relay.channel leg.other)
  let forwarded := switch.updateRelay ref fun relay => relay.setChannel outward leg.other
  return { forwarded with
    handed := Function.update switch.handed ref (Function.update (switch.handed ref) leg
      (switch.handed ref leg ++ [(toIdentity, packet)])) }

/-- The channel's own part: it may open again, fail or end, and leaves the table then. -/
def takePacket (switch : PeerSwitch) (now : Nat) (ref : RelayRef) (leg : Leg) (packet : THPacket) :
    PeerSwitch :=
  let relay := switch.relays ref
  let channel := relay.channel leg
  let reopened := if opensAgain packet then channel.setState .opened else channel
  let taken := reopened.handlePacket .none now packet
  let kept := switch.updateRelay ref fun relay => relay.setChannel taken leg
  if taken.registered then kept
  else kept.updateIdentity (relay.toIdentity leg) fun identity =>
    { identity with channels := identity.channels.erase taken.channelId }

/-- `handlePacket:` of the line of an identity, as far as relays are concerned. -/
def handlePacket (switch : PeerSwitch) (now : Nat) (toIdentity : IdentityRef)
    (innerPacket : THPacket) : Except Fault PeerSwitch :=
  match channelIdOf innerPacket with
  | none => .ok switch
  | some channelId => do
      let channelType ← readText (innerPacket.objectForKey "type")
      if channelType = some "peer" then peerBranch switch now toIdentity channelId innerPacket
      else if channelType = some "seek" ∨ channelType = some "connect" then return switch
      else
        match (switch.identities toIdentity).channels.lookup channelId with
        | some (.relay ref leg) => do
            let forwarded ← match toDelegate ((switch.relays ref).channel leg) now innerPacket with
              | none => .ok switch
              | some packet => relayPacket switch now toIdentity ref leg packet
            return takePacket forwarded now ref leg innerPacket
        | _ => return switch

/-! ## Everything that happens to relays -/

inductive Event where
  | handlePacket (now : Nat) (toIdentity : IdentityRef) (innerPacket : THPacket)
  -- the pending job of a channel is run with a line of its identity
  | release (now : Nat) (index : Nat) (nextChannelId : Nat)
  -- lines open and close, identities learn their keys
  | setOpenLines (openLines : List IdentityRef)
  | setIdentity (identity : IdentityRef) (hashname : String) (parts : Option Parts)
      (currentLine : Option Nat)
  -- another channel takes an id, or leaves it
  | setChannel (identity : IdentityRef) (channelId : Nat)
  | removeChannel (identity : IdentityRef) (channelId : Nat)
  | closeChannels (identity : IdentityRef)

/-- `closeChannels` ends the channels of the relays that the identity keeps. -/
def closeKept (switch : PeerSwitch) : Nat × Kept → PeerSwitch
  | (_, .relay ref leg) => switch.updateRelay ref fun relay =>
      if (relay.channel leg).state = .ended then relay
      else relay.setChannel ((relay.channel leg).setState .ended) leg
  | (_, .other) => switch

def closeChannels (switch : PeerSwitch) (identity : IdentityRef) : PeerSwitch :=
  ((switch.identities identity).channels.entries.foldl closeKept switch).updateIdentity identity
    fun identity => { identity with channels := .empty }

def perform (switch : PeerSwitch) : Event → Except Fault PeerSwitch
  | .handlePacket now toIdentity innerPacket => handlePacket switch now toIdentity innerPacket
  | .release now index nextChannelId =>
      match switch.pendingJobs[index]? with
      | none => .ok switch
      | some (ref, leg) => .ok (channelLine
          { switch with pendingJobs := switch.pendingJobs.eraseIdx index } now ref leg
          nextChannelId)
  | .setOpenLines openLines => .ok { switch with openLines := openLines }
  | .setIdentity identity hashname parts currentLine =>
      .ok (switch.updateIdentity identity fun held =>
        ⟨hashname, parts, held.channels, currentLine⟩)
  | .setChannel identity channelId => .ok (switch.updateIdentity identity fun held =>
      { held with channels := held.channels.insert channelId .other })
  | .removeChannel identity channelId => .ok (switch.updateIdentity identity fun held =>
      { held with channels := held.channels.erase channelId })
  | .closeChannels identity => .ok (closeChannels switch identity)

/-- A call that raises ends the program where it was. -/
def step (switch : PeerSwitch) (event : Event) : PeerSwitch :=
  (perform switch event).toOption.getD switch

/-! ## One leg -/

/-- What the relay has for the channel of a leg, if all of it is passed on. -/
def forLeg (relay : Relay) (handed : Leg → List (IdentityRef × THPacket)) (leg : Leg) :
    List THPacket :=
  (if relay.numbered leg then (relay.firstPacket leg).toList else []) ++
    (handed leg.other).map fun given => THPeerRelay.outPacket given.2

/-- The channel has all of it, or has halted with a first part of it. -/
def Carried (channel : THUnreliableChannel) (given : List THPacket) : Prop :=
  Queued channel.channelId given channel ∨ channel.state.Halted ∧
    ∃ carried, carried <+: given ∧
      channel.outbox ++ channel.packetBuffer = carried.map (addressed channel.channelId)

structure LegSound (relay : Relay) (handed : Leg → List (IdentityRef × THPacket)) (leg : Leg) :
    Prop where
  unnumbered : relay.numbered leg = false → leg = .connect ∧ (relay.channel leg).state = .opening ∧
    handed leg.other = []
  waiting : (relay.channel leg).state = .opening → handed leg = [] ∧
    (relay.numbered leg = true → leg = .peer ∧ (relay.channel leg).channelId ≠ 0)
  source : ∀ given ∈ handed leg, given.1 = relay.toIdentity leg ∧
    channelIdOf given.2 = some (relay.channel leg).channelId
  carried : Carried (relay.channel leg) (forLeg relay handed leg)

theorem carried_more {channel : THUnreliableChannel} {given : List THPacket}
    (carried : Carried channel given) (now : Nat) (packet : THPacket) :
    Carried (channel.sendPacket now packet) (given ++ [packet]) := by
  rcases carried with queued | ⟨halted, carried, leading, whole⟩
  · have more := queued_send queued now packet
    have id := more.id
    rw [← id] at more
    exact Or.inl more
  · have same : channel.sendPacket now packet = { channel with lastOutActivity := now } := by
      simp [THUnreliableChannel.sendPacket, halted]
    rw [same]
    exact Or.inr ⟨halted, carried, leading.trans (List.prefix_append _ _), whole⟩

theorem legSound_congr {relay after : Relay} {handed : Leg → List (IdentityRef × THPacket)}
    {leg : Leg} (sound : LegSound relay handed leg)
    (toIdentity : after.toIdentity = relay.toIdentity)
    (numbered : after.numbered leg = relay.numbered leg)
    (first : after.connectPacket = relay.connectPacket)
    (channel : after.channel leg = relay.channel leg) : LegSound after handed leg := by
  have same : forLeg after handed leg = forLeg relay handed leg := by
    unfold forLeg Relay.firstPacket
    rw [numbered, first]
  constructor
  case unnumbered => rw [numbered, channel]; exact sound.unnumbered
  case waiting => rw [numbered, channel]; exact sound.waiting
  case source => rw [toIdentity, channel]; exact sound.source
  case carried => rw [channel, same]; exact sound.carried

/-- What a channel that is open becomes by a packet. -/
structure Takes (channel taken : THUnreliableChannel) : Prop where
  id : taken.channelId = channel.channelId
  whole : taken.outbox ++ taken.packetBuffer = channel.outbox ++ channel.packetBuffer
  state : taken.state.Halted ∧ taken.registered = false ∨
    taken.state = .opened ∧ taken.packetBuffer = []

theorem takes_reopened {channel : THUnreliableChannel} (opened : channel.state = .opened)
    (flushed : channel.packetBuffer = []) (again : Bool) :
    Takes channel (if again then channel.setState .opened else channel) := by
  obtain ⟨id, state, empty, outbox⟩ := setState_opened channel
  split
  · exact ⟨id, by rw [empty, outbox, List.append_nil], Or.inr ⟨state, empty⟩⟩
  · exact ⟨rfl, rfl, Or.inr ⟨opened, flushed⟩⟩

theorem takes_handlePacket {channel start : THUnreliableChannel} (reopened : Takes channel start)
    (now : Nat) (packet : THPacket) : Takes channel (start.handlePacket .none now packet) := by
  refine THUnreliableChannel.handlePacket_keeps ?_ ?_ ?_ ?_
  · unfold THUnreliableChannel.superHandlePacket
    split
    · exact reopened
    · exact ⟨reopened.id, reopened.whole, Or.inl ⟨Or.inr rfl, rfl⟩⟩
  · intro reached takes
    exact ⟨takes.id, takes.whole, takes.state⟩
  · intro reached takes
    exact takes
  · intro reached takes
    have closed : (reached.setState .ended).close now =
        { reached with state := .ended, registered := false } := by
      simp [THUnreliableChannel.setState, THUnreliableChannel.close,
        THUnreliableChannel.deregister]
    rw [closed]
    exact ⟨takes.id, takes.whole, Or.inl ⟨Or.inl rfl, rfl⟩⟩

theorem carried_takes {channel taken : THUnreliableChannel} {given : List THPacket}
    (carried : Carried channel given) (alive : channel.state = .opened)
    (takes : Takes channel taken) : Carried taken given := by
  rcases carried with queued | ⟨halted, _⟩
  · have whole : taken.outbox ++ taken.packetBuffer = given.map (addressed taken.channelId) := by
      rw [takes.whole, takes.id]
      exact queued.whole
    rcases takes.state with ⟨halted, _⟩ | ⟨opened, empty⟩
    · exact Or.inr ⟨halted, given, List.prefix_rfl, whole⟩
    · refine Or.inl ⟨rfl, ?_, whole, fun _ => empty⟩
      rw [opened]
      simp [THChannelState.Halted]
  · rw [alive] at halted
    simp [THChannelState.Halted] at halted

theorem carried_ended {channel : THUnreliableChannel} {given : List THPacket}
    (carried : Carried channel given) : Carried (channel.setState .ended) given := by
  have ended : channel.setState .ended = { channel with state := .ended } := rfl
  rw [ended]
  rcases carried with queued | ⟨_, carried, leading, whole⟩
  · exact Or.inr ⟨Or.inl rfl, given, List.prefix_rfl, queued.whole⟩
  · exact Or.inr ⟨Or.inl rfl, carried, leading, whole⟩

/-! ## All legs -/

/-- The channel of the leg is open, to this identity and under this id. -/
structure Holds (relay : Relay) (leg : Leg) (identity : IdentityRef) (channelId : Nat) : Prop where
  toIdentity : relay.toIdentity leg = identity
  numbered : relay.numbered leg = true
  channelId : (relay.channel leg).channelId = channelId
  opened : (relay.channel leg).state = .opened

/-- Every leg is sound; what an identity keeps of a relay is an open channel of it under its
own id; the channels that wait for a line have not been opened; and nothing was handed to a
relay before it was made. -/
structure Sound (switch : PeerSwitch) : Prop where
  kept : ∀ identity channelId ref leg,
    (switch.identities identity).channels.lookup channelId = some (.relay ref leg) →
    ref < switch.nextRelay ∧ Holds (switch.relays ref) leg identity channelId
  pending : ∀ job ∈ switch.pendingJobs, job.1 < switch.nextRelay ∧
    ((switch.relays job.1).channel job.2).state = .opening
  nodup : switch.pendingJobs.Nodup
  legs : ∀ ref < switch.nextRelay, ∀ leg,
    LegSound (switch.relays ref) (switch.handed ref) leg
  unmade : ∀ ref, switch.nextRelay ≤ ref → ∀ leg, switch.handed ref leg = []

theorem leg_cases (one two : Leg) : two = one ∨ two = one.other := by
  cases one <;> cases two <;> simp [Leg.other]

theorem leg_other_ne (leg : Leg) : leg.other ≠ leg := by cases leg <;> decide

@[simp] theorem leg_other_other (leg : Leg) : leg.other.other = leg := by cases leg <;> rfl

/-- A leg other than the given one has all it had. -/
structure Elsewhere (relays after : RelayRef → Relay) (ref : RelayRef) (leg : Leg) : Prop where
  others : ∀ other, other ≠ ref → after other = relays other
  toIdentity : (after ref).toIdentity = (relays ref).toIdentity
  connectPacket : (after ref).connectPacket = (relays ref).connectPacket
  numbered : (after ref).numbered leg.other = (relays ref).numbered leg.other
  channel : (after ref).channel leg.other = (relays ref).channel leg.other

theorem elsewhere_update {relays : RelayRef → Relay} {ref : RelayRef} {leg : Leg} {relay : Relay}
    (toIdentity : relay.toIdentity = (relays ref).toIdentity)
    (connectPacket : relay.connectPacket = (relays ref).connectPacket)
    (numbered : relay.numbered leg.other = (relays ref).numbered leg.other)
    (channel : relay.channel leg.other = (relays ref).channel leg.other) :
    Elsewhere relays (Function.update relays ref relay) ref leg where
  others := fun other different => Function.update_of_ne different _ _
  toIdentity := by rw [Function.update_self]; exact toIdentity
  connectPacket := by rw [Function.update_self]; exact connectPacket
  numbered := by rw [Function.update_self]; exact numbered
  channel := by rw [Function.update_self]; exact channel

section Opening
variable {switch : PeerSwitch} {ref : RelayRef} {leg : Leg}

theorem elsewhere_leg {relays after : RelayRef → Relay} (elsewhere : Elsewhere relays after ref leg)
    {other : RelayRef} {otherLeg : Leg} (different : (other, otherLeg) ≠ (ref, leg)) :
    (after other).toIdentity = (relays other).toIdentity ∧
      (after other).connectPacket = (relays other).connectPacket ∧
      (after other).numbered otherLeg = (relays other).numbered otherLeg ∧
      (after other).channel otherLeg = (relays other).channel otherLeg := by
  by_cases same : other = ref
  · subst same
    rcases leg_cases leg otherLeg with rfl | rfl
    · exact absurd rfl different
    · exact ⟨elsewhere.toIdentity, elsewhere.connectPacket, elsewhere.numbered, elsewhere.channel⟩
  · rw [elsewhere.others other same]
    exact ⟨rfl, rfl, rfl, rfl⟩

theorem holds_elsewhere {relays after : RelayRef → Relay}
    (elsewhere : Elsewhere relays after ref leg) {other : RelayRef} {otherLeg : Leg}
    (different : (other, otherLeg) ≠ (ref, leg)) {identity : IdentityRef} {channelId : Nat}
    (holds : Holds (relays other) otherLeg identity channelId) :
    Holds (after other) otherLeg identity channelId := by
  obtain ⟨toIdentity, _, numbered, channel⟩ := elsewhere_leg elsewhere different
  exact ⟨toIdentity ▸ holds.toIdentity, numbered ▸ holds.numbered, channel ▸ holds.channelId,
    channel ▸ holds.opened⟩

theorem legSound_elsewhere {relays after : RelayRef → Relay}
    (elsewhere : Elsewhere relays after ref leg) {other : RelayRef} {otherLeg : Leg}
    (different : (other, otherLeg) ≠ (ref, leg)) {handed : Leg → List (IdentityRef × THPacket)}
    (sound : LegSound (relays other) handed otherLeg) : LegSound (after other) handed otherLeg := by
  obtain ⟨toIdentity, first, numbered, channel⟩ := elsewhere_leg elsewhere different
  exact legSound_congr sound toIdentity numbered first channel

theorem channelLine_relays (switch : PeerSwitch) (now : Nat) (ref : RelayRef) (leg : Leg)
    (nextChannelId : Nat) :
    (channelLine switch now ref leg nextChannelId).relays =
      Function.update switch.relays ref (openedRelay now nextChannelId (switch.relays ref) leg) :=
  rfl

theorem queued_opening {channel : THUnreliableChannel} {given : List THPacket}
    (carried : Carried channel given) (opening : channel.state = .opening) :
    Queued channel.channelId given channel := by
  rcases carried with queued | ⟨halted, _⟩
  · exact queued
  · rw [opening] at halted
    simp [THChannelState.Halted] at halted

theorem openedRelay_numbered (now nextChannelId : Nat) (relay : Relay) (leg : Leg) :
    (openedRelay now nextChannelId relay leg).numbered leg = true := by
  simp [openedRelay]

theorem openedRelay_other (now nextChannelId : Nat) (relay : Relay) (leg : Leg) :
    (openedRelay now nextChannelId relay leg).channel leg.other = relay.channel leg.other ∧
      (openedRelay now nextChannelId relay leg).numbered leg.other = relay.numbered leg.other := by
  constructor
  · cases leg <;> rfl
  · exact Function.update_of_ne (leg_other_ne leg) _ _

/-- An open channel of a relay is sound once it has all it was given. -/
theorem legSound_opened {relay : Relay} {handed : Leg → List (IdentityRef × THPacket)} {leg : Leg}
    {channelId : Nat} (numbered : relay.numbered leg = true)
    (opened : (relay.channel leg).state = .opened) (none_ : handed leg = [])
    (queued : Queued channelId (forLeg relay handed leg) (relay.channel leg)) :
    LegSound relay handed leg := by
  constructor
  case unnumbered =>
    intro unnumbered
    rw [numbered] at unnumbered
    cases unnumbered
  case waiting =>
    intro still
    rw [opened] at still
    cases still
  case source =>
    rw [none_]
    exact List.forall_mem_nil _
  case carried =>
    refine Or.inl ?_
    rw [queued.id]
    exact queued

/-- A channel that is opened under the id it has passes on what it had kept back. -/
theorem openedRelay_peer (now nextChannelId : Nat) {relay : Relay}
    {handed : Leg → List (IdentityRef × THPacket)} (sound : LegSound relay handed .peer)
    (opening : (relay.channel .peer).state = .opening) :
    LegSound (openedRelay now nextChannelId relay .peer) handed .peer ∧
      ((openedRelay now nextChannelId relay .peer).channel .peer).state = .opened := by
  have numbered : relay.numbered .peer = true := by
    by_contra unnumbered
    cases (sound.unnumbered (Bool.eq_false_iff.mpr unnumbered)).1
  obtain ⟨none_, named⟩ := sound.waiting opening
  have some_ := (named numbered).2
  have channel : (openedRelay now nextChannelId relay .peer).channel .peer =
      (relay.channel .peer).setState .opened := by
    simp only [openedRelay, Relay.openId, Relay.given, numbered, some_, Relay.firstPacket, ne_eq,
      not_false_eq_true, decide_true, Bool.and_self, ↓reduceIte]
    rfl
  have numberedAfter := openedRelay_numbered now nextChannelId relay .peer
  have opened := (setState_opened (relay.channel .peer)).2.1
  have queued := queued_setState (queued_opening sound.carried opening)
    (show ¬ THChannelState.opened.Halted by simp [THChannelState.Halted])
  have same : forLeg (openedRelay now nextChannelId relay .peer) handed .peer =
      forLeg relay handed .peer := by
    simp only [forLeg, numberedAfter, numbered, Relay.firstPacket]
  rw [← channel] at opened queued
  rw [← same] at queued
  exact ⟨legSound_opened numberedAfter opened none_ queued, opened⟩

/-- The other channel draws its id and sends the connect packet first. -/
theorem openedRelay_connect (now nextChannelId : Nat) {relay : Relay}
    {handed : Leg → List (IdentityRef × THPacket)} (sound : LegSound relay handed .connect)
    (opening : (relay.channel .connect).state = .opening) :
    LegSound (openedRelay now nextChannelId relay .connect) handed .connect ∧
      ((openedRelay now nextChannelId relay .connect).channel .connect).state = .opened := by
  have numbered : relay.numbered .connect = false := by
    by_contra numbered
    cases ((sound.waiting opening).2 (Bool.eq_true_of_not_eq_false numbered)).1
  obtain ⟨_, _, silent⟩ := sound.unnumbered numbered
  generalize drawing : (nextChannelId + 2) % uintModulus = drawn
  have channel : (openedRelay now nextChannelId relay .connect).channel .connect =
      (({ relay.channel .connect with channelId := drawn }.setState .opened).sendPacket now
        relay.connectPacket) := by
    simp only [openedRelay, Relay.openId, Relay.given, numbered, Relay.firstPacket,
      Bool.false_and, Bool.false_eq_true, ↓reduceIte, drawing]
    rfl
  have numberedAfter := openedRelay_numbered now nextChannelId relay .connect
  have before := queued_opening sound.carried opening
  have empty : forLeg relay handed .connect = [] := by
    simp [forLeg, numbered, silent]
  rw [empty] at before
  have renamed : Queued drawn [] { relay.channel .connect with channelId := drawn } :=
    ⟨rfl, before.alive, before.whole, before.flushed⟩
  have queued := queued_send (queued_setState renamed
    (show ¬ THChannelState.opened.Halted by simp [THChannelState.Halted])) now relay.connectPacket
  have opened : ((({ relay.channel .connect with channelId := drawn }.setState .opened).sendPacket
      now relay.connectPacket)).state = .opened := by
    have still := (setState_opened
      { relay.channel .connect with channelId := drawn }).2.1
    simp [THUnreliableChannel.sendPacket, still, THChannelState.Halted,
      THUnreliableChannel.sendAddressed, THUnreliableChannel.adoptType,
      THUnreliableChannel.realSend]
  have first : forLeg (openedRelay now nextChannelId relay .connect) handed .connect =
      [relay.connectPacket] := by
    simp only [forLeg, numberedAfter, silent, ↓reduceIte, List.map_nil, List.append_nil]
    rfl
  rw [← channel] at opened queued
  rw [List.nil_append, ← first] at queued
  exact ⟨legSound_opened numberedAfter opened (sound.waiting opening).1 queued, opened⟩

theorem openedRelay_leg (now nextChannelId : Nat) {relay : Relay}
    {handed : Leg → List (IdentityRef × THPacket)} (sound : LegSound relay handed leg)
    (opening : (relay.channel leg).state = .opening) :
    LegSound (openedRelay now nextChannelId relay leg) handed leg ∧
      ((openedRelay now nextChannelId relay leg).channel leg).state = .opened := by
  cases leg with
  | peer => exact openedRelay_peer now nextChannelId sound opening
  | connect => exact openedRelay_connect now nextChannelId sound opening

theorem openedRelay_elsewhere (relays : RelayRef → Relay) (now nextChannelId : Nat) (ref : RelayRef)
    (leg : Leg) :
    Elsewhere relays
      (Function.update relays ref (openedRelay now nextChannelId (relays ref) leg)) ref leg := by
  obtain ⟨channel, numbered⟩ := openedRelay_other now nextChannelId (relays ref) leg
  refine elsewhere_update ?_ ?_ numbered channel
  · cases leg <;> rfl
  · cases leg <;> rfl

theorem sendPacket_channelId (channel : THUnreliableChannel) (now : Nat) (packet : THPacket) :
    (channel.sendPacket now packet).channelId = channel.channelId := by
  simp only [THUnreliableChannel.sendPacket, THUnreliableChannel.sendAddressed]
  split
  · rfl
  · split <;> rfl

theorem openedRelay_id (now nextChannelId : Nat) (relay : Relay) (leg : Leg) :
    ((openedRelay now nextChannelId relay leg).channel leg).channelId =
      relay.openId leg nextChannelId := by
  have opened := (setState_opened
    { relay.channel leg with channelId := relay.openId leg nextChannelId }).1
  cases leg with
  | peer => exact opened
  | connect => exact (sendPacket_channelId _ now _).trans opened

theorem channelLine_channels (switch : PeerSwitch) (now : Nat) (ref : RelayRef) (leg : Leg)
    (nextChannelId : Nat) (identity : IdentityRef) :
    ((channelLine switch now ref leg nextChannelId).identities identity).channels =
      if identity = (switch.relays ref).toIdentity leg then
        (switch.identities identity).channels.insert
          ((switch.relays ref).openId leg nextChannelId) (.relay ref leg)
      else (switch.identities identity).channels := by
  by_cases same : identity = (switch.relays ref).toIdentity leg
  · subst same
    rw [if_pos rfl]
    simp only [channelLine, PeerSwitch.updateIdentity, Function.update_self]
    rfl
  · rw [if_neg same]
    simp only [channelLine, PeerSwitch.updateIdentity, Function.update_of_ne same]
    rfl

/-- Opening the channel of a leg that waits for nothing more. -/
theorem sound_channelLine (sound : Sound switch) (now nextChannelId : Nat)
    (made : ref < switch.nextRelay)
    (opening : ((switch.relays ref).channel leg).state = .opening)
    (unqueued : (ref, leg) ∉ switch.pendingJobs) :
    Sound (channelLine switch now ref leg nextChannelId) := by
  obtain ⟨legAfter, openedAfter⟩ :=
    openedRelay_leg now nextChannelId (sound.legs ref made leg) opening
  have elsewhere := openedRelay_elsewhere switch.relays now nextChannelId ref leg
  have relay : (channelLine switch now ref leg nextChannelId).relays ref =
      openedRelay now nextChannelId (switch.relays ref) leg := Function.update_self _ _ _
  constructor
  case kept =>
    intro identity channelId other otherLeg found
    have old : (switch.identities identity).channels.lookup channelId =
        some (.relay other otherLeg) →
        other < switch.nextRelay ∧ Holds ((channelLine switch now ref leg nextChannelId).relays
          other) otherLeg identity channelId := by
      intro known
      obtain ⟨before, holds⟩ := sound.kept identity channelId other otherLeg known
      have different : (other, otherLeg) ≠ (ref, leg) := by
        rintro ⟨⟩
        rw [holds.opened] at opening
        cases opening
      exact ⟨before, holds_elsewhere elsewhere different holds⟩
    rw [channelLine_channels] at found
    split at found
    · rename_i owner
      rw [lookup_insert] at found
      split at found
      · rename_i id
        cases found
        rw [relay]
        refine ⟨made, ?_, openedRelay_numbered now nextChannelId _ leg,
          (openedRelay_id now nextChannelId _ leg).trans id.symm, openedAfter⟩
        rw [owner, ← elsewhere.toIdentity, Function.update_self]
      · exact old found
    · exact old found
  case pending =>
    intro job queued
    have different : (job.1, job.2) ≠ (ref, leg) := fun same => unqueued (same ▸ queued)
    obtain ⟨before, waits⟩ := sound.pending job queued
    have same := (elsewhere_leg elsewhere different).2.2.2
    rw [channelLine_relays, same]
    exact ⟨before, waits⟩
  case nodup => exact sound.nodup
  case legs =>
    intro other before otherLeg
    by_cases same : (other, otherLeg) = (ref, leg)
    · cases same
      rw [relay]
      exact legAfter
    · exact legSound_elsewhere elsewhere same (sound.legs other before otherLeg)
  case unmade => exact sound.unmade

theorem sound_openChannel (sound : Sound switch) (now : Nat) (made : ref < switch.nextRelay)
    (opening : ((switch.relays ref).channel leg).state = .opening)
    (unqueued : (ref, leg) ∉ switch.pendingJobs) :
    Sound (openChannel switch now ref leg) := by
  unfold openChannel
  split
  · refine { sound with pending := ?_, nodup := ?_ }
    · intro job member
      rcases List.mem_append.mp member with old | new
      · exact sound.pending job old
      · rw [List.mem_singleton.mp new]
        exact ⟨made, opening⟩
    · refine List.nodup_append.mpr ⟨sound.nodup, List.nodup_singleton _, ?_⟩
      rintro job old other new rfl
      exact unqueued (List.mem_singleton.mp new ▸ old)
  · exact sound_channelLine sound now _ made opening unqueued

/-- The other channel of the relay still waits to be opened. -/
theorem openChannel_other (switch : PeerSwitch) (now : Nat) (ref : RelayRef) (leg : Leg) :
    (openChannel switch now ref leg).nextRelay = switch.nextRelay ∧
      ((openChannel switch now ref leg).relays ref).channel leg.other =
        (switch.relays ref).channel leg.other ∧
      ∀ job ∈ (openChannel switch now ref leg).pendingJobs,
        job ∈ switch.pendingJobs ∨ job = (ref, leg) := by
  unfold openChannel
  split
  · refine ⟨rfl, rfl, fun job member => ?_⟩
    rcases List.mem_append.mp member with old | new
    · exact Or.inl old
    · exact Or.inr (List.mem_singleton.mp new)
  · exact ⟨rfl, (openedRelay_elsewhere switch.relays now _ ref leg).channel,
      fun job member => Or.inl member⟩

theorem legSound_newRelay (toIdentity target : IdentityRef) {channelId : Nat}
    (some_ : channelId ≠ 0) (connectPacket : THPacket) (leg : Leg) :
    LegSound (newRelay toIdentity target channelId connectPacket) (fun _ => []) leg := by
  cases leg with
  | peer =>
      refine ⟨fun unnumbered => absurd unnumbered.symm Bool.false_ne_true,
        fun _ => ⟨rfl, fun _ => ⟨rfl, some_⟩⟩, List.forall_mem_nil _, Or.inl ?_⟩
      exact ⟨rfl, by simp [newRelay, THPeerRelay.channel, initToIdentity, THChannelState.Halted],
        rfl, fun _ => rfl⟩
  | connect =>
      refine ⟨fun _ => ⟨rfl, rfl, rfl⟩,
        fun _ => ⟨rfl, fun numbered => absurd numbered Bool.false_ne_true⟩,
        List.forall_mem_nil _, Or.inl ?_⟩
      exact ⟨rfl, by simp [newRelay, THPeerRelay.channel, initToIdentity, THChannelState.Halted],
        rfl, fun _ => rfl⟩

/-- A peer request makes a relay that has nothing of the others. -/
theorem sound_peerBranch {after : PeerSwitch} {toIdentity : IdentityRef} {channelId now : Nat}
    {innerPacket : THPacket} (sound : Sound switch) (some_ : channelId ≠ 0)
    (asking : peerBranch switch now toIdentity channelId innerPacket = .ok after) :
    Sound after := by
  unfold peerBranch at asking
  obtain ⟨hashname, _, asking⟩ := (bind_ok_iff _ _ _).mp asking
  split at asking
  · cases asking
    exact sound
  · rename_i target _
    split at asking
    · cases asking
    · rename_i parts _
      cases asking
      generalize connectPacket parts innerPacket = packet
      have old : ∀ other < switch.nextRelay,
          Function.update switch.relays switch.nextRelay
            (newRelay toIdentity target channelId packet) other = switch.relays other :=
        fun other inside => Function.update_of_ne (Nat.ne_of_lt inside) _ _
      have made : Sound { switch with
          relays := Function.update switch.relays switch.nextRelay
            (newRelay toIdentity target channelId packet)
          nextRelay := switch.nextRelay + 1 } := by
        constructor
        case kept =>
          intro identity id other leg found
          have before := sound.kept identity id other leg found
          dsimp only
          rw [old other before.1]
          exact ⟨Nat.lt_succ_of_lt before.1, before.2⟩
        case pending =>
          intro job queued
          obtain ⟨before, waits⟩ := sound.pending job queued
          dsimp only
          rw [old job.1 before]
          exact ⟨Nat.lt_succ_of_lt before, waits⟩
        case nodup => exact sound.nodup
        case legs =>
          intro other inside leg
          dsimp only
          rcases Nat.lt_succ_iff_lt_or_eq.mp inside with before | rfl
          · rw [old other before]
            exact sound.legs other before leg
          · have none_ : switch.handed switch.nextRelay = fun _ => [] :=
              funext (sound.unmade switch.nextRelay (Nat.le_refl _))
            rw [Function.update_self, none_]
            exact legSound_newRelay toIdentity target some_ packet leg
        case unmade => exact fun ref later => sound.unmade ref (Nat.le_of_succ_le later)
      have unqueued : ∀ leg, (switch.nextRelay, leg) ∉ switch.pendingJobs := fun leg queued =>
        Nat.lt_irrefl _ (sound.pending _ queued).1
      have relay : Function.update switch.relays switch.nextRelay
          (newRelay toIdentity target channelId packet) switch.nextRelay =
          newRelay toIdentity target channelId packet := Function.update_self _ _ _
      obtain ⟨next, channel, jobs⟩ := openChannel_other { switch with
        relays := Function.update switch.relays switch.nextRelay
          (newRelay toIdentity target channelId packet)
        nextRelay := switch.nextRelay + 1 } now
        switch.nextRelay .peer
      refine sound_openChannel (sound_openChannel made now (Nat.lt_succ_self _) ?_ (unqueued .peer))
        now ?_ ?_ ?_
      · dsimp only
        rw [relay]
        rfl
      · rw [next]
        exact Nat.lt_succ_self _
      · have channel := congrArg THUnreliableChannel.state channel
        dsimp only at channel
        rw [relay] at channel
        exact channel
      · intro queued
        rcases jobs _ queued with old | same
        · exact unqueued .connect old
        · cases same

theorem elsewhere_setChannel (relays : RelayRef → Relay) (ref : RelayRef) (leg : Leg)
    (channel : THUnreliableChannel) :
    Elsewhere relays (Function.update relays ref ((relays ref).setChannel channel leg)) ref leg :=
  elsewhere_update (Relay.toIdentity_setChannel _ _ _) (Relay.connectPacket_setChannel _ _ _)
    (congrFun (Relay.numbered_setChannel _ _ _) _) (Relay.channel_setChannel_other _ _ _)

theorem forward_forwards {now : Nat} {packet : THPacket} {numbered : Bool}
    {channel outward : THUnreliableChannel} (forwarding : forward now packet numbered channel =
      .ok outward) (alive : numbered = false → ¬ channel.state.Halted) :
    numbered = true ∧ outward = channel.sendPacket now (THPeerRelay.outPacket packet) := by
  unfold forward at forwarding
  split at forwarding
  · cases forwarding
  · rename_i addressable
    cases forwarding
    refine ⟨?_, rfl⟩
    by_contra unnumbered
    rw [Bool.not_eq_true] at unnumbered
    exact addressable ⟨by simp [unnumbered], alive unnumbered⟩

theorem state_sendPacket (channel : THUnreliableChannel) (now : Nat) (packet : THPacket) :
    (channel.sendPacket now packet).state = channel.state := by
  simp only [THUnreliableChannel.sendPacket, THUnreliableChannel.sendAddressed]
  split
  · rfl
  · split <;> rfl

/-- A packet for a leg, and one more handed over by the other. -/
theorem legSound_sends {relay : Relay} {handed : Leg → List (IdentityRef × THPacket)}
    (sound : LegSound relay handed leg.other) (numbered : relay.numbered leg.other = true)
    (now : Nat) (given : IdentityRef × THPacket) :
    LegSound (relay.setChannel ((relay.channel leg.other).sendPacket now
        (THPeerRelay.outPacket given.2)) leg.other)
      (Function.update handed leg (handed leg ++ [given])) leg.other := by
  have silent : Function.update handed leg (handed leg ++ [given]) leg.other = handed leg.other :=
    Function.update_of_ne (leg_other_ne leg) _ _
  constructor
  case unnumbered =>
    intro unnumbered
    rw [Relay.numbered_setChannel, numbered] at unnumbered
    cases unnumbered
  case waiting =>
    rw [Relay.channel_setChannel_same, Relay.numbered_setChannel, state_sendPacket,
      sendPacket_channelId, silent]
    exact sound.waiting
  case source =>
    rw [Relay.channel_setChannel_same, Relay.toIdentity_setChannel, sendPacket_channelId, silent]
    exact sound.source
  case carried =>
    have more : forLeg (relay.setChannel ((relay.channel leg.other).sendPacket now
        (THPeerRelay.outPacket given.2)) leg.other)
        (Function.update handed leg (handed leg ++ [given])) leg.other =
        forLeg relay handed leg.other ++ [THPeerRelay.outPacket given.2] := by
      have first : (relay.setChannel ((relay.channel leg.other).sendPacket now
          (THPeerRelay.outPacket given.2)) leg.other).firstPacket leg.other =
          relay.firstPacket leg.other := by
        cases leg <;> rfl
      simp only [forLeg, first, Relay.numbered_setChannel, leg_other_other, Function.update_self,
        List.map_append, List.map_singleton, List.append_assoc]
    rw [Relay.channel_setChannel_same, more]
    exact carried_more sound.carried now _

/-- The leg that has handed a packet over. -/
theorem legSound_handed {relay : Relay} {handed : Leg → List (IdentityRef × THPacket)}
    (sound : LegSound relay handed leg) {identity : IdentityRef} {channelId : Nat}
    (holds : Holds relay leg identity channelId) {packet : THPacket}
    (named : channelIdOf packet = some channelId) :
    LegSound relay (Function.update handed leg (handed leg ++ [(identity, packet)])) leg := by
  have other : Function.update handed leg (handed leg ++ [(identity, packet)]) leg.other =
      handed leg.other := Function.update_of_ne (leg_other_ne leg) _ _
  constructor
  case unnumbered =>
    rw [other]
    exact sound.unnumbered
  case waiting =>
    intro opening
    rw [holds.opened] at opening
    cases opening
  case source =>
    rw [Function.update_self]
    intro given member
    rcases List.mem_append.mp member with old | new
    · exact sound.source given old
    · rw [List.mem_singleton.mp new]
      exact ⟨holds.toIdentity.symm, by rw [holds.channelId]; exact named⟩
  case carried =>
    have same : forLeg relay (Function.update handed leg (handed leg ++ [(identity, packet)])) leg =
        forLeg relay handed leg := by
      unfold forLeg
      rw [other]
    rw [same]
    exact sound.carried

/-- What a leg has handed over is passed to the other leg and to no other channel. -/
theorem sound_relayPacket {after : PeerSwitch} {identity : IdentityRef} {channelId now : Nat}
    {packet : THPacket} (sound : Sound switch) (made : ref < switch.nextRelay)
    (holds : Holds (switch.relays ref) leg identity channelId)
    (named : channelIdOf packet = some channelId)
    (relaying : relayPacket switch now identity ref leg packet = .ok after) :
    Sound after ∧ after.identities = switch.identities ∧ after.nextRelay = switch.nextRelay ∧
      Holds (after.relays ref) leg identity channelId := by
  obtain ⟨outward, forwarding, relaying⟩ := (bind_ok_iff _ _ _).mp relaying
  cases relaying
  have legOther := sound.legs ref made leg.other
  obtain ⟨numbered, rfl⟩ := forward_forwards forwarding fun unnumbered => by
    rw [(legOther.unnumbered unnumbered).2.1]
    simp [THChannelState.Halted]
  have elsewhere := elsewhere_setChannel switch.relays ref leg.other
    (((switch.relays ref).channel leg.other).sendPacket now (THPeerRelay.outPacket packet))
  have here : (ref, leg) ≠ (ref, leg.other) := fun same =>
    leg_other_ne leg (congrArg Prod.snd same).symm
  refine ⟨?_, rfl, rfl, holds_elsewhere elsewhere here holds⟩
  constructor
  case kept =>
    intro other id otherRef otherLeg found
    obtain ⟨before, held⟩ := sound.kept other id otherRef otherLeg found
    refine ⟨before, ?_⟩
    by_cases same : (otherRef, otherLeg) = (ref, leg.other)
    · cases same
      simp only [PeerSwitch.updateRelay, Function.update_self]
      refine ⟨?_, ?_, ?_, ?_⟩
      · rw [Relay.toIdentity_setChannel, held.toIdentity]
      · rw [Relay.numbered_setChannel, held.numbered]
      · rw [Relay.channel_setChannel_same, sendPacket_channelId, held.channelId]
      · rw [Relay.channel_setChannel_same, state_sendPacket, held.opened]
    · exact holds_elsewhere elsewhere same held
  case pending =>
    intro job queued
    obtain ⟨before, waits⟩ := sound.pending job queued
    refine ⟨before, ?_⟩
    by_cases same : (job.1, job.2) = (ref, leg.other)
    · obtain ⟨sameRef, sameLeg⟩ := Prod.mk.inj same
      simp only [PeerSwitch.updateRelay, sameRef, sameLeg, Function.update_self,
        Relay.channel_setChannel_same, state_sendPacket]
      rw [← sameRef, ← sameLeg]
      exact waits
    · rw [← waits]
      exact congrArg THUnreliableChannel.state (elsewhere_leg elsewhere same).2.2.2
  case nodup => exact sound.nodup
  case legs =>
    intro other before otherLeg
    by_cases same : other = ref
    · subst same
      simp only [PeerSwitch.updateRelay, Function.update_self]
      rcases leg_cases leg otherLeg with rfl | rfl
      · have kept := legSound_handed (sound.legs other before otherLeg) holds named
        refine legSound_congr kept ?_ ?_ ?_ ?_
        · rw [Relay.toIdentity_setChannel]
        · rw [Relay.numbered_setChannel]
        · rw [Relay.connectPacket_setChannel]
        · cases otherLeg <;> rfl
      · exact legSound_sends (sound.legs other before leg.other) numbered now (identity, packet)
    · simp only [PeerSwitch.updateRelay, Function.update_of_ne same]
      exact sound.legs other before otherLeg
  case unmade =>
    intro other later
    have different : other ≠ ref := fun same => Nat.not_lt.mpr later (same ▸ made)
    simp only [Function.update_of_ne different]
    exact sound.unmade other later

theorem takes_opening {channel taken : THUnreliableChannel} (takes : Takes channel taken) :
    taken.state ≠ .opening := by
  rcases takes.state with ⟨ended | errored, _⟩ | ⟨opened, _⟩
  · rw [ended]; decide
  · rw [errored]; decide
  · rw [opened]; decide

/-- The leg a packet has come in on. -/
theorem legSound_takes {relay : Relay} {handed : Leg → List (IdentityRef × THPacket)}
    {taken : THUnreliableChannel} (sound : LegSound relay handed leg) {identity : IdentityRef}
    {channelId : Nat} (holds : Holds relay leg identity channelId)
    (takes : Takes (relay.channel leg) taken) :
    LegSound (relay.setChannel taken leg) handed leg := by
  constructor
  case unnumbered =>
    intro unnumbered
    rw [Relay.numbered_setChannel, holds.numbered] at unnumbered
    cases unnumbered
  case waiting =>
    intro opening
    rw [Relay.channel_setChannel_same] at opening
    exact absurd opening (takes_opening takes)
  case source =>
    rw [Relay.channel_setChannel_same, Relay.toIdentity_setChannel, takes.id]
    exact sound.source
  case carried =>
    have same : forLeg (relay.setChannel taken leg) handed leg = forLeg relay handed leg := by
      have first : (relay.setChannel taken leg).firstPacket leg = relay.firstPacket leg := by
        cases leg <;> rfl
      simp only [forLeg, first, Relay.numbered_setChannel]
    rw [Relay.channel_setChannel_same, same]
    exact carried_takes sound.carried holds.opened takes

/-- A channel that a packet ends or fails is kept no longer. -/
theorem sound_takePacket {identity : IdentityRef} {channelId : Nat} (sound : Sound switch)
    (made : ref < switch.nextRelay) (holds : Holds (switch.relays ref) leg identity channelId)
    (now : Nat) (packet : THPacket) : Sound (takePacket switch now ref leg packet) := by
  have legHere := sound.legs ref made leg
  have flushed : ((switch.relays ref).channel leg).packetBuffer = [] := by
    rcases legHere.carried with queued | ⟨halted, _⟩
    · exact queued.flushed holds.opened
    · rw [holds.opened] at halted
      simp [THChannelState.Halted] at halted
  have takes := takes_handlePacket (takes_reopened holds.opened flushed (opensAgain packet)) now
    packet
  unfold takePacket
  dsimp only
  generalize (if opensAgain packet then ((switch.relays ref).channel leg).setState .opened
    else (switch.relays ref).channel leg).handlePacket .none now packet = taken at takes ⊢
  have elsewhere := elsewhere_setChannel switch.relays ref leg taken
  have pending : ∀ job ∈ switch.pendingJobs, job.1 < switch.nextRelay ∧
      ((Function.update switch.relays ref ((switch.relays ref).setChannel taken leg)
        job.1).channel job.2).state = .opening := by
    intro job queued
    obtain ⟨before, waits⟩ := sound.pending job queued
    have different : (job.1, job.2) ≠ (ref, leg) := by
      intro same
      obtain ⟨sameRef, sameLeg⟩ := Prod.mk.inj same
      rw [sameRef, sameLeg, holds.opened] at waits
      cases waits
    refine ⟨before, ?_⟩
    rw [(elsewhere_leg elsewhere different).2.2.2]
    exact waits
  have legs : ∀ other < switch.nextRelay, ∀ otherLeg,
      LegSound (Function.update switch.relays ref ((switch.relays ref).setChannel taken leg) other)
        (switch.handed other) otherLeg := by
    intro other before otherLeg
    by_cases same : (other, otherLeg) = (ref, leg)
    · cases same
      rw [Function.update_self]
      exact legSound_takes legHere holds takes
    · exact legSound_elsewhere elsewhere same (sound.legs other before otherLeg)
  split
  · rename_i registered
    have opened : taken.state = .opened := by
      rcases takes.state with ⟨_, left⟩ | ⟨opened, _⟩
      · rw [registered] at left
        cases left
      · exact opened
    refine ⟨?_, pending, sound.nodup, legs, sound.unmade⟩
    intro other id otherRef otherLeg found
    obtain ⟨before, held⟩ := sound.kept other id otherRef otherLeg found
    refine ⟨before, ?_⟩
    by_cases same : (otherRef, otherLeg) = (ref, leg)
    · cases same
      simp only [PeerSwitch.updateRelay, Function.update_self]
      refine ⟨?_, ?_, ?_, ?_⟩
      · rw [Relay.toIdentity_setChannel, held.toIdentity]
      · rw [Relay.numbered_setChannel, held.numbered]
      · rw [Relay.channel_setChannel_same, takes.id, held.channelId]
      · rw [Relay.channel_setChannel_same, opened]
    · exact holds_elsewhere elsewhere same held
  · refine ⟨?_, pending, sound.nodup, legs, sound.unmade⟩
    intro other id otherRef otherLeg found
    have before : (switch.identities other).channels.lookup id =
        some (.relay otherRef otherLeg) ∧ ¬ (other = identity ∧ id = channelId) := by
      simp only [PeerSwitch.updateIdentity, PeerSwitch.updateRelay] at found
      by_cases owner : other = (switch.relays ref).toIdentity leg
      · rw [owner, Function.update_self, lookup_erase] at found
        split at found
        · cases found
        · rename_i different
          rw [takes.id, holds.channelId] at different
          exact ⟨owner ▸ found, fun same => different same.2⟩
      · rw [Function.update_of_ne owner] at found
        exact ⟨found, fun same => owner (same.1.trans holds.toIdentity.symm)⟩
    obtain ⟨known, apart⟩ := before
    obtain ⟨inside, held⟩ := sound.kept other id otherRef otherLeg known
    refine ⟨inside, ?_⟩
    have different : (otherRef, otherLeg) ≠ (ref, leg) := by
      rintro ⟨⟩
      exact apart ⟨held.toIdentity.symm.trans holds.toIdentity,
        held.channelId.symm.trans holds.channelId⟩
    exact holds_elsewhere elsewhere different held

theorem toDelegate_same {channel : THUnreliableChannel} {now : Nat} {packet reached : THPacket}
    (given : toDelegate channel now packet = some reached) : reached = packet := by
  unfold toDelegate at given
  generalize (if opensAgain packet then channel.setState .opened else channel) = reopened at given
  dsimp only at given
  split at given
  · cases given
  · exact (Option.some.inj given).symm

/-- A peer request that gives its channel an id to keep. -/
def Numbered (innerPacket : THPacket) : Prop :=
  innerPacket.objectForKey "type" = some (.string "peer") → channelIdOf innerPacket ≠ some 0

theorem sound_handlePacket {after : PeerSwitch} {now : Nat} {toIdentity : IdentityRef}
    {innerPacket : THPacket} (sound : Sound switch) (named : Numbered innerPacket)
    (handling : handlePacket switch now toIdentity innerPacket = .ok after) : Sound after := by
  unfold handlePacket at handling
  split at handling
  · cases handling
    exact sound
  · rename_i channelId id
    obtain ⟨channelType, typed, handling⟩ := (bind_ok_iff _ _ _).mp handling
    split at handling
    · rename_i peer
      subst peer
      refine sound_peerBranch sound (fun same => ?_) handling
      rw [same] at id
      refine named ?_ id
      unfold readText at typed
      split at typed <;> simp_all
    · split at handling
      · cases handling
        exact sound
      · split at handling
        · rename_i ref leg found
          obtain ⟨made, holds⟩ := sound.kept toIdentity channelId ref leg found
          dsimp only at handling
          split at handling
          · cases handling
            exact sound_takePacket sound made holds now innerPacket
          · rename_i packet handedOver
            obtain ⟨forwarded, relaying, handling⟩ := (bind_ok_iff _ _ _).mp handling
            cases handling
            have same := toDelegate_same handedOver
            subst same
            obtain ⟨relayed, _, next, held⟩ := sound_relayPacket sound made holds id relaying
            exact sound_takePacket relayed (next ▸ made) held now packet
        · cases handling
          exact sound

end Opening

/-! ## The end of the channels of an identity -/

/-- No channel but those among the entries has ended. -/
structure Closed (entries : List (Nat × Kept)) (switch after : PeerSwitch) : Prop where
  identities : after.identities = switch.identities
  nextRelay : after.nextRelay = switch.nextRelay
  pendingJobs : after.pendingJobs = switch.pendingJobs
  handed : after.handed = switch.handed
  toIdentity : ∀ ref, (after.relays ref).toIdentity = (switch.relays ref).toIdentity
  numbered : ∀ ref, (after.relays ref).numbered = (switch.relays ref).numbered
  connectPacket : ∀ ref, (after.relays ref).connectPacket = (switch.relays ref).connectPacket
  channel : ∀ ref leg, (after.relays ref).channel leg = (switch.relays ref).channel leg ∨
    (∃ channelId, (channelId, Kept.relay ref leg) ∈ entries) ∧
      (after.relays ref).channel leg = ((switch.relays ref).channel leg).setState .ended

theorem closed_closeKept (switch : PeerSwitch) (entry : Nat × Kept) :
    Closed [entry] switch (closeKept switch entry) := by
  obtain ⟨channelId, kept⟩ := entry
  cases kept with
  | other => exact ⟨rfl, rfl, rfl, rfl, fun _ => rfl, fun _ => rfl, fun _ => rfl,
      fun _ _ => Or.inl rfl⟩
  | relay ref leg =>
      generalize changing : (if ((switch.relays ref).channel leg).state = .ended
        then switch.relays ref
        else (switch.relays ref).setChannel (((switch.relays ref).channel leg).setState .ended)
          leg) = changed
      have relays : (closeKept switch (channelId, .relay ref leg)).relays =
          Function.update switch.relays ref changed := by
        rw [← changing]
        rfl
      have field : ∀ {β : Type} (part : Relay → β), part changed = part (switch.relays ref) →
          ∀ other, part ((closeKept switch (channelId, .relay ref leg)).relays other) =
            part (switch.relays other) := by
        intro β part same other
        rw [relays]
        by_cases here : other = ref
        · rw [here, Function.update_self, same]
        · rw [Function.update_of_ne here]
      refine ⟨rfl, rfl, rfl, rfl, field Relay.toIdentity ?_, field Relay.numbered ?_,
        field Relay.connectPacket ?_, ?_⟩
      · rw [← changing]
        split
        · rfl
        · exact Relay.toIdentity_setChannel _ _ _
      · rw [← changing]
        split
        · rfl
        · exact Relay.numbered_setChannel _ _ _
      · rw [← changing]
        split
        · rfl
        · exact Relay.connectPacket_setChannel _ _ _
      · intro other otherLeg
        rw [relays]
        by_cases here : other = ref
        · rw [here, Function.update_self, ← changing]
          split
          · exact Or.inl rfl
          · rcases leg_cases leg otherLeg with rfl | rfl
            · rw [Relay.channel_setChannel_same]
              exact Or.inr ⟨⟨channelId, List.mem_singleton_self _⟩, rfl⟩
            · exact Or.inl (Relay.channel_setChannel_other _ _ _)
        · rw [Function.update_of_ne here]
          exact Or.inl rfl

theorem closed_fold (entries : List (Nat × Kept)) (switch : PeerSwitch) :
    Closed entries switch (entries.foldl closeKept switch) := by
  induction entries generalizing switch with
  | nil => exact ⟨rfl, rfl, rfl, rfl, fun _ => rfl, fun _ => rfl, fun _ => rfl,
      fun _ _ => Or.inl rfl⟩
  | cons entry entries ih =>
      have one := closed_closeKept switch entry
      have rest := ih (closeKept switch entry)
      refine ⟨rest.identities.trans one.identities, rest.nextRelay.trans one.nextRelay,
        rest.pendingJobs.trans one.pendingJobs, rest.handed.trans one.handed,
        fun ref => (rest.toIdentity ref).trans (one.toIdentity ref),
        fun ref => (rest.numbered ref).trans (one.numbered ref),
        fun ref => (rest.connectPacket ref).trans (one.connectPacket ref), fun ref leg => ?_⟩
      have here : ∀ {channelId}, (channelId, Kept.relay ref leg) ∈ [entry] →
          (channelId, Kept.relay ref leg) ∈ entry :: entries := fun member => by
        rw [List.mem_singleton.mp member]
        exact List.mem_cons_self
      rcases one.channel ref leg with same | ⟨⟨channelId, member⟩, ended⟩ <;>
        rcases rest.channel ref leg with still | ⟨⟨otherId, inside⟩, endedAgain⟩
      · exact Or.inl (still.trans same)
      · refine Or.inr ⟨⟨otherId, List.mem_cons_of_mem _ inside⟩, endedAgain.trans ?_⟩
        rw [same]
      · exact Or.inr ⟨⟨channelId, here member⟩, still.trans ended⟩
      · refine Or.inr ⟨⟨channelId, here member⟩, endedAgain.trans ?_⟩
        rw [ended]
        rfl

theorem sound_closeChannels {switch : PeerSwitch} (sound : Sound switch) (identity : IdentityRef) :
    Sound (closeChannels switch identity) := by
  have closed := closed_fold (switch.identities identity).channels.entries switch
  unfold closeChannels
  generalize (switch.identities identity).channels.entries.foldl closeKept switch = after
    at closed ⊢
  have mine : ∀ {ref leg channelId},
      (channelId, Kept.relay ref leg) ∈ (switch.identities identity).channels.entries →
      Holds (switch.relays ref) leg identity channelId := fun member =>
    (sound.kept identity _ _ _ ((lookup_some_iff _ _ _).mpr member)).2
  constructor
  case kept =>
    intro other channelId ref leg found
    by_cases owner : other = identity
    · rw [owner] at found
      simp [PeerSwitch.updateIdentity] at found
    · have known : (switch.identities other).channels.lookup channelId =
          some (.relay ref leg) := by
        rw [← closed.identities]
        simpa only [PeerSwitch.updateIdentity, Function.update_of_ne owner] using found
      obtain ⟨made, holds⟩ := sound.kept other channelId ref leg known
      refine ⟨closed.nextRelay.symm ▸ made, ?_⟩
      rcases closed.channel ref leg with same | ⟨⟨otherId, member⟩, _⟩
      · refine ⟨?_, ?_, ?_, ?_⟩
        · exact (congrFun (closed.toIdentity ref) leg).trans holds.toIdentity
        · exact (congrFun (closed.numbered ref) leg).trans holds.numbered
        · exact (congrArg THUnreliableChannel.channelId same).trans holds.channelId
        · exact (congrArg THUnreliableChannel.state same).trans holds.opened
      · exact absurd (holds.toIdentity.symm.trans (mine member).toIdentity) owner
  case pending =>
    intro job queued
    have before : job ∈ switch.pendingJobs := closed.pendingJobs ▸ queued
    obtain ⟨made, waits⟩ := sound.pending job before
    refine ⟨closed.nextRelay.symm ▸ made, ?_⟩
    rcases closed.channel job.1 job.2 with same | ⟨⟨otherId, member⟩, _⟩
    · exact (congrArg THUnreliableChannel.state same).trans waits
    · rw [(mine member).opened] at waits
      cases waits
  case nodup => exact closed.pendingJobs.symm ▸ sound.nodup
  case unmade =>
    intro ref later leg
    have same : (after.updateIdentity identity fun held =>
        { held with channels := .empty }).handed = switch.handed := closed.handed
    rw [same]
    exact sound.unmade ref (closed.nextRelay ▸ later) leg
  case legs =>
    intro ref made leg
    have legBefore := sound.legs ref (closed.nextRelay ▸ made) leg
    have same : (after.updateIdentity identity fun held => { held with channels := .empty }).handed
        ref = switch.handed ref := congrFun closed.handed ref
    rw [same]
    rcases closed.channel ref leg with still | ⟨⟨channelId, member⟩, ended⟩
    · exact legSound_congr legBefore (closed.toIdentity ref) (congrFun (closed.numbered ref) leg)
        (closed.connectPacket ref) still
    · have holds := mine member
      have numbered : (after.relays ref).numbered leg = true :=
        (congrFun (closed.numbered ref) leg).trans holds.numbered
      have state : ((after.relays ref).channel leg).state = .ended :=
        congrArg THUnreliableChannel.state ended
      have given : forLeg (after.relays ref) (switch.handed ref) leg =
          forLeg (switch.relays ref) (switch.handed ref) leg := by
        unfold forLeg Relay.firstPacket
        rw [closed.numbered, closed.connectPacket]
      constructor
      case unnumbered =>
        intro unnumbered
        exact absurd (numbered.symm.trans unnumbered) (by decide)
      case waiting =>
        intro opening
        exact absurd (state.symm.trans opening) (by decide)
      case source =>
        intro packet member
        obtain ⟨from_, named⟩ := legBefore.source packet member
        refine ⟨from_.trans (congrFun (closed.toIdentity ref) leg).symm, named.trans ?_⟩
        exact congrArg some (congrArg THUnreliableChannel.channelId ended).symm
      case carried =>
        have carried := carried_ended legBefore.carried
        rw [← ended, ← given] at carried
        exact carried

/-! ## Every run -/

/-- The packet of an event, with the identity whose line it came over. -/
def received : Event → List (IdentityRef × THPacket)
  | .handlePacket _ toIdentity innerPacket => [(toIdentity, innerPacket)]
  | _ => []

/-- The packets that come in on a leg: those its identity sends under the id it keeps the
leg by, while the other channel has an id to send them on under. Without one the call raises. -/
def comesIn (ref : RelayRef) (leg : Leg) (switch : PeerSwitch) :
    Event → List (IdentityRef × THPacket)
  | .handlePacket _ toIdentity innerPacket =>
      match channelIdOf innerPacket, readText (innerPacket.objectForKey "type") with
      | some channelId, .ok channelType =>
          if ¬(channelType = some "peer" ∨ channelType = some "seek" ∨
                channelType = some "connect") ∧
              (switch.identities toIdentity).channels.lookup channelId = some (.relay ref leg) ∧
              (switch.relays ref).numbered leg.other = true then [(toIdentity, innerPacket)]
          else []
      | _, _ => []
  | _ => []

def Possible : PeerSwitch → Event → Prop
  | _, .handlePacket _ _ innerPacket => Numbered innerPacket
  | _, _ => True

theorem sound_release {switch : PeerSwitch} (sound : Sound switch) {index : Nat} {ref : RelayRef}
    {leg : Leg} (found : switch.pendingJobs[index]? = some (ref, leg)) (now nextChannelId : Nat) :
    Sound (channelLine { switch with pendingJobs := switch.pendingJobs.eraseIdx index } now ref leg
      nextChannelId) := by
  obtain ⟨made, opening⟩ := sound.pending (ref, leg) (List.mem_of_getElem? found)
  have fewer : ∀ {job}, job ∈ switch.pendingJobs.eraseIdx index → job ∈ switch.pendingJobs :=
    fun member => (List.eraseIdx_sublist _ _).subset member
  have rest : Sound { switch with pendingJobs := switch.pendingJobs.eraseIdx index } :=
    ⟨sound.kept, fun job queued => sound.pending job (fewer queued),
      sound.nodup.sublist (List.eraseIdx_sublist _ _), sound.legs, sound.unmade⟩
  refine sound_channelLine rest now nextChannelId made opening fun again => ?_
  obtain ⟨other, different, same⟩ := List.mem_eraseIdx_iff_getElem?.mp again
  obtain ⟨inside, _⟩ := List.getElem?_eq_some_iff.mp same
  exact different ((List.getElem?_inj inside sound.nodup).mp (same.trans found.symm))

theorem sound_updateIdentity {switch : PeerSwitch} (sound : Sound switch) (identity : IdentityRef)
    (change : THIdentity → THIdentity)
    (fewer : ∀ held channelId ref leg,
      (change held).channels.lookup channelId = some (.relay ref leg) →
      held.channels.lookup channelId = some (.relay ref leg)) :
    Sound (switch.updateIdentity identity change) := by
  refine ⟨?_, sound.pending, sound.nodup, sound.legs, sound.unmade⟩
  intro other channelId ref leg found
  refine sound.kept other channelId ref leg ?_
  by_cases same : other = identity
  · subst same
    simp only [PeerSwitch.updateIdentity, Function.update_self] at found
    exact fewer _ _ _ _ found
  · simpa only [PeerSwitch.updateIdentity, Function.update_of_ne same] using found

theorem sound_perform {switch after : PeerSwitch} (sound : Sound switch) {event : Event}
    (possible : Possible switch event) (performing : perform switch event = .ok after) :
    Sound after := by
  cases event with
  | handlePacket now toIdentity innerPacket =>
      exact sound_handlePacket sound possible performing
  | release now index nextChannelId =>
      simp only [perform] at performing
      split at performing <;> cases performing
      · exact sound
      · rename_i ref leg found
        exact sound_release sound found now nextChannelId
  | setOpenLines openLines =>
      cases performing
      exact ⟨sound.kept, sound.pending, sound.nodup, sound.legs, sound.unmade⟩
  | setIdentity identity hashname parts currentLine =>
      cases performing
      exact sound_updateIdentity sound identity _ fun _ _ _ _ found => found
  | setChannel identity channelId =>
      cases performing
      refine sound_updateIdentity sound identity _ fun held other ref leg found => ?_
      rw [lookup_insert] at found
      split at found
      · cases found
      · exact found
  | removeChannel identity channelId =>
      cases performing
      refine sound_updateIdentity sound identity _ fun held other ref leg found => ?_
      rw [lookup_erase] at found
      split at found
      · cases found
      · exact found
  | closeChannels identity =>
      cases performing
      exact sound_closeChannels sound identity

theorem step_eq (switch : PeerSwitch) (event : Event) :
    step switch event = switch ∨ perform switch event = .ok (step switch event) := by
  unfold step
  cases perform switch event with
  | error fault => exact Or.inl rfl
  | ok after => exact Or.inr rfl

theorem sound_step (switch : PeerSwitch) (event : Event) (possible : Possible switch event)
    (sound : Sound switch) : Sound (step switch event) := by
  rcases step_eq switch event with same | performing
  · rw [same]
    exact sound
  · exact sound_perform sound possible performing

theorem handed_openChannel (switch : PeerSwitch) (now : Nat) (ref : RelayRef) (leg : Leg) :
    (openChannel switch now ref leg).handed = switch.handed := by
  unfold openChannel
  split <;> rfl

theorem handed_takePacket (switch : PeerSwitch) (now : Nat) (ref : RelayRef) (leg : Leg)
    (packet : THPacket) : (takePacket switch now ref leg packet).handed = switch.handed := by
  unfold takePacket
  dsimp only
  generalize THUnreliableChannel.handlePacket _ _ _ _ = taken
  split <;> rfl

theorem handed_peerBranch {switch after : PeerSwitch} {now channelId : Nat}
    {toIdentity : IdentityRef} {innerPacket : THPacket}
    (asking : peerBranch switch now toIdentity channelId innerPacket = .ok after) :
    after.handed = switch.handed := by
  unfold peerBranch at asking
  obtain ⟨hashname, _, asking⟩ := (bind_ok_iff _ _ _).mp asking
  split at asking
  · cases asking
    rfl
  · split at asking
    · cases asking
    · cases asking
      rw [handed_openChannel, handed_openChannel]

/-- An open channel gives its delegate every packet. -/
theorem toDelegate_opened {channel : THUnreliableChannel} (opened : channel.state = .opened)
    (now : Nat) (packet : THPacket) : toDelegate channel now packet = some packet := by
  have reopened : (if opensAgain packet then channel.setState .opened else channel).state =
      .opened := by
    split
    · exact (setState_opened channel).2.1
    · exact opened
  unfold toDelegate
  dsimp only
  generalize (if opensAgain packet then channel.setState .opened else channel) = start at reopened ⊢
  refine if_neg fun opening => ?_
  unfold THUnreliableChannel.superHandlePacket at opening
  split at opening
  · rw [reopened] at opening
    cases opening
  · cases opening

/-- A relay takes what a leg hands it if the other channel has its id. -/
theorem relayPacket_numbered {switch : PeerSwitch} {ref : RelayRef} {leg : Leg}
    (numbered : (switch.relays ref).numbered leg.other = true) (now : Nat)
    (toIdentity : IdentityRef) (packet : THPacket) :
    ∃ after, relayPacket switch now toIdentity ref leg packet = .ok after ∧
      after.handed = Function.update switch.handed ref (Function.update (switch.handed ref) leg
        (switch.handed ref leg ++ [(toIdentity, packet)])) := by
  have forwards : forward now packet ((switch.relays ref).numbered leg.other)
      ((switch.relays ref).channel leg.other) =
      .ok (THPeerRelay.channelHandlePacket now packet ((switch.relays ref).channel leg.other)) := by
    simp [forward, numbered]
  unfold relayPacket
  simp only [forwards, ok_bind, pure_eq_ok]
  exact ⟨_, rfl, rfl⟩

theorem relayPacket_unnumbered {switch : PeerSwitch} {ref : RelayRef} {leg : Leg}
    (other : LegSound (switch.relays ref) (switch.handed ref) leg.other)
    (unnumbered : (switch.relays ref).numbered leg.other = false) (now : Nat)
    (toIdentity : IdentityRef) (packet : THPacket) :
    relayPacket switch now toIdentity ref leg packet = .error .nilArgument := by
  have raises : forward now packet ((switch.relays ref).numbered leg.other)
      ((switch.relays ref).channel leg.other) = .error .nilArgument := by
    have opening := (other.unnumbered unnumbered).2.1
    simp [forward, unnumbered, opening, THChannelState.Halted]
  unfold relayPacket
  simp only [raises]
  rfl

/-- What an open channel of a relay does with a packet for it. -/
theorem handed_keptLeg {switch : PeerSwitch} (sound : Sound switch) {toIdentity : IdentityRef}
    {channelId : Nat} {outer : RelayRef} {outerLeg : Leg}
    (found : (switch.identities toIdentity).channels.lookup channelId =
      some (.relay outer outerLeg)) (now : Nat) (innerPacket : THPacket) (ref : RelayRef)
    (leg : Leg) :
    ((do
        let forwarded ← relayPacket switch now toIdentity outer outerLeg innerPacket
        return takePacket forwarded now outer outerLeg innerPacket :
        Except Fault PeerSwitch).toOption.getD switch).handed ref leg =
      switch.handed ref leg ++ if Kept.relay outer outerLeg = .relay ref leg ∧
        (switch.relays ref).numbered leg.other = true then [(toIdentity, innerPacket)] else [] := by
  obtain ⟨made, _⟩ := sound.kept toIdentity channelId outer outerLeg found
  cases numbered : (switch.relays outer).numbered outerLeg.other with
  | false =>
      rw [relayPacket_unnumbered (sound.legs outer made outerLeg.other) numbered, if_neg,
        List.append_nil]
      · rfl
      · rintro ⟨⟨⟩, named⟩
        rw [numbered] at named
        cases named
  | true =>
      obtain ⟨forwarded, passed, handed⟩ :=
        relayPacket_numbered numbered now toIdentity innerPacket
      rw [passed, ok_bind, pure_eq_ok, Except.toOption, Option.getD_some, handed_takePacket,
        handed]
      by_cases same : ref = outer
      · subst same
        by_cases sameLeg : leg = outerLeg
        · subst sameLeg
          simp [numbered]
        · have other : Kept.relay ref outerLeg ≠ .relay ref leg := by
            rintro ⟨⟩
            exact sameLeg rfl
          simp [Function.update_of_ne sameLeg, other]
      · have other : Kept.relay outer outerLeg ≠ .relay ref leg := by
          rintro ⟨⟩
          exact same rfl
        simp [Function.update_of_ne same, other]

theorem handed_handlePacket {switch : PeerSwitch} (sound : Sound switch) (now : Nat)
    (toIdentity : IdentityRef) (innerPacket : THPacket) (ref : RelayRef) (leg : Leg) :
    ((handlePacket switch now toIdentity innerPacket).toOption.getD switch).handed ref leg =
      switch.handed ref leg ++
        comesIn ref leg switch (.handlePacket now toIdentity innerPacket) := by
  unfold handlePacket
  cases id : channelIdOf innerPacket with
  | none => simp [comesIn, id, Except.toOption]
  | some channelId =>
      cases typed : readText (innerPacket.objectForKey "type") with
      | error fault =>
          simp only [comesIn, id, typed, List.append_nil]
          rfl
      | ok channelType =>
          simp only [comesIn, id, typed, ok_bind]
          by_cases peer : channelType = some "peer"
          · subst peer
            rw [if_pos rfl, if_neg (by simp), List.append_nil]
            cases asking : peerBranch switch now toIdentity channelId innerPacket with
            | error fault => rfl
            | ok after => exact congrFun (congrFun (handed_peerBranch asking) ref) leg
          rw [if_neg peer]
          by_cases taken : channelType = some "seek" ∨ channelType = some "connect"
          · rw [if_pos taken, if_neg (by rcases taken with rfl | rfl <;> simp), List.append_nil]
            rfl
          rw [if_neg taken]
          have plain : ¬(channelType = some "peer" ∨ channelType = some "seek" ∨
              channelType = some "connect") := not_or.mpr ⟨peer, taken⟩
          simp only [plain, not_false_eq_true, true_and]
          cases found : (switch.identities toIdentity).channels.lookup channelId with
          | none => simp [Except.toOption]
          | some kept =>
              cases kept with
              | other => simp [Except.toOption]
              | relay outer outerLeg =>
                  have holds := (sound.kept toIdentity channelId outer outerLeg found).2
                  simp only [toDelegate_opened holds.opened, Option.some.injEq]
                  exact handed_keptLeg sound found now innerPacket ref leg

/-- What a step hands to a leg is what its packet brings there. -/
theorem handed_step {switch : PeerSwitch} (sound : Sound switch) (event : Event) (ref : RelayRef)
    (leg : Leg) : (step switch event).handed ref leg =
      switch.handed ref leg ++ comesIn ref leg switch event := by
  cases event with
  | handlePacket now toIdentity innerPacket =>
      exact handed_handlePacket sound now toIdentity innerPacket ref leg
  | release now index nextChannelId =>
      simp only [step, perform, comesIn, List.append_nil]
      split <;> rfl
  | closeChannels identity =>
      have closed := closed_fold (switch.identities identity).channels.entries switch
      have same : (closeChannels switch identity).handed = switch.handed := closed.handed
      simp only [step, perform, comesIn, List.append_nil]
      exact congrFun (congrFun same ref) leg
  | setOpenLines | setIdentity | setChannel | removeChannel => exact (List.append_nil _).symm

theorem comesIn_received (ref : RelayRef) (leg : Leg) (switch : PeerSwitch) (event : Event) :
    (comesIn ref leg switch event).Sublist (received event) := by
  unfold comesIn received
  split
  · split
    · split
      · exact List.Sublist.refl _
      · exact List.nil_sublist _
    · exact List.nil_sublist _
  · exact List.nil_sublist _

/-- A switch that has relayed nothing so far. -/
structure Unused (switch : PeerSwitch) : Prop where
  none_ : switch.nextRelay = 0
  waiting : switch.pendingJobs = []
  handed : ∀ ref leg, switch.handed ref leg = []
  kept : ∀ identity channelId ref leg,
    (switch.identities identity).channels.lookup channelId ≠ some (.relay ref leg)

theorem sound_unused {switch : PeerSwitch} (unused : Unused switch) : Sound switch where
  kept identity channelId ref leg found := absurd found (unused.kept identity channelId ref leg)
  pending job queued := by
    rw [unused.waiting] at queued
    cases queued
  nodup := by
    rw [unused.waiting]
    exact List.nodup_nil
  legs ref made := by
    rw [unused.none_] at made
    cases made
  unmade ref _ := unused.handed ref

/-- Whatever relays a switch makes and however their packets come in between each other, each
leg sends to its own end exactly the packets that have come in on the other leg of the same
relay, in the order they came and each once: all of them while its channel lives, a first part
of them when it has halted. What comes in on a leg is of its identity, under its channel id, and
an open channel keeps nothing back. -/
theorem relays_carry (start : PeerSwitch) (events : List Event) (unused : Unused start)
    (possible : Along step Possible start events) (ref : RelayRef)
    (made : ref < (run step start events).nextRelay) (leg : Leg) :
    let relay := (run step start events).relays ref
    let channel := relay.channel leg
    let came := fun leg => collect step (comesIn ref leg) start events
    (∀ given ∈ came leg,
      given.1 = relay.toIdentity leg ∧ channelIdOf given.2 = some channel.channelId) ∧
    (came leg).Sublist (events.flatMap received) ∧
    ∃ carried, carried <+: forLeg relay came leg ∧
      channel.outbox ++ channel.packetBuffer = carried.map (addressed channel.channelId) ∧
      (¬ channel.state.Halted → carried = forLeg relay came leg) ∧
      (channel.state = .opened → channel.packetBuffer = []) := by
  have handed : ∀ leg, (run step start events).handed ref leg =
      collect step (comesIn ref leg) start events := by
    intro leg
    have log := log_collect (fun switch : PeerSwitch => switch.handed ref leg) sound_step
      (fun _ event _ sound => handed_step sound event ref leg) start events (sound_unused unused)
      possible
    rwa [unused.handed, List.nil_append] at log
  have sound := (run_invariant sound_step start events (sound_unused unused) possible).legs ref
    made leg
  rw [funext handed] at sound
  refine ⟨sound.source, collect_sublist (comesIn_received ref leg) start events, ?_⟩
  rcases sound.carried with queued | ⟨halted, carried, leading, whole⟩
  · exact ⟨_, List.prefix_rfl, queued.whole, fun _ => rfl, queued.flushed⟩
  · refine ⟨carried, leading, whole, fun alive => absurd halted alive, fun opened => ?_⟩
    rw [opened] at halted
    simp [THChannelState.Halted] at halted

/-- Two identities with open lines. -/
def twoEnds : PeerSwitch where
  identities ref := if ref = 0 then ⟨"a", some (.single "1a" "aa"), .empty, some 1⟩
    else ⟨"b", some (.single "1a" "bb"), .empty, some 9⟩
  openLines := [0, 1]
  relays := fun _ => newRelay 0 0 0 THPacket.new
  nextRelay := 0
  pendingJobs := []
  handed := fun _ _ => []

def peerRequest (channelId : Nat) : THPacket :=
  ((THPacket.new.setObject (.string "peer") "type").setObject (.string "b") "peer").setObject
    (.number channelId) "c"

def onChannel (channelId : Nat) (body : Data) : THPacket :=
  { THPacket.new.setObject (.number channelId) "c" with body := some body }

/-- Two relays between the same ends, their packets in between each other. -/
def interleaved : List Event := [.handlePacket 0 0 (peerRequest 4),
  .handlePacket 1 0 (peerRequest 6), .handlePacket 2 0 (onChannel 6 [1]),
  .handlePacket 3 1 (onChannel 11 [2]), .handlePacket 4 0 (onChannel 4 [3])]

/-- The first end's packet goes out behind the connect packet of its own relay. -/
theorem relays_carry_interleaved :
    let relay := (run step twoEnds interleaved).relays 1
    let came := fun leg => collect step (comesIn 1 leg) twoEnds interleaved
    came .peer = [(0, onChannel 6 [1])] ∧
      (relay.channel .connect).outbox =
        [relay.connectPacket, THPeerRelay.outPacket (onChannel 6 [1])].map
          (addressed (relay.channel .connect).channelId) := by
  have unused : Unused twoEnds := by
    refine ⟨rfl, rfl, fun _ _ => rfl, fun identity channelId ref leg => ?_⟩
    unfold twoEnds
    dsimp only
    split <;> simp
  have possible : Along step Possible twoEnds interleaved :=
    ⟨fun _ => by decide, fun _ => by decide, fun _ => by decide, fun _ => by decide,
      fun _ => by decide, trivial⟩
  have came : collect step (comesIn 1 .peer) twoEnds interleaved = [(0, onChannel 6 [1])] := rfl
  obtain ⟨_, _, carried, _, whole, all, flushed⟩ :=
    relays_carry twoEnds interleaved unused possible 1 (by decide +kernel) .connect
  have opened : (((run step twoEnds interleaved).relays 1).channel .connect).state = .opened := by
    decide +kernel
  have alive : ¬ (((run step twoEnds interleaved).relays 1).channel .connect).state.Halted := by
    rw [opened]
    simp [THChannelState.Halted]
  rw [all alive, flushed opened, List.append_nil] at whole
  exact ⟨came, whole⟩

end Telehash.PeerRelays
