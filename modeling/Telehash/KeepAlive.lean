import Telehash.LineDispatch
import Telehash.PingPass
import Mathlib.Data.Fintype.Sets

/-!
The link channels among any number of switches, over time. The timer of each
switch runs `pingLines` now and then, packets take their time and may come more
than once, and a pass gives up a link that was silent for fifty seconds. A
packet of the mesh goes along the line of its identity; what is queued for a
line still to be opened is not followed here.
-/

namespace Telehash.KeepAlive
open Foundation Packet Channel UnreliableChannel LineDispatch MeshBuckets PingPass Runs
open Identity (IdentityRef ChannelRef)

variable {Switch : Type}

/-- What is on its way from one switch to another, and since when. -/
structure Datagram (Switch : Type) where
  sender : Switch
  receiver : Switch
  sentAt : Nat
  packet : THPacket

/-- A switch's mesh and the objects behind its link channels. -/
structure Station where
  mesh : Mesh
  channel : IdentityRef → THUnreliableChannel
  -- when `pingLines` last ran
  lastPass : Nat

structure World (Switch : Type) where
  now : Nat
  station : Switch → Station
  flight : List (Datagram Switch)

/-- Which identity object of a switch stands for which other switch, and the id
of the link channel between two. `sees` is what a first answer names, `beyond`
what lies behind a hashname's bytes. -/
structure Setting (Switch : Type) where
  identity : Switch → Switch → IdentityRef
  switchOf : Switch → IdentityRef → Option Switch
  known : ∀ here there, switchOf here (identity here there) = some there
  link : Switch → Switch → Nat
  shared : ∀ here there, link here there = link there here
  sees : Mesh → IdentityRef → List String
  application : Application
  beyond : Data

inductive Event (Switch : Type) where
  | tick
  | pass (here : Switch)
  -- the packet at some place comes in, and may come in again
  | arrives (place : Nat) (again : Bool)
  deriving DecidableEq

namespace World
variable [DecidableEq Switch] (world : World Switch) (here : Switch)

def withMesh (mesh : Mesh) : World Switch :=
  { world with
    station := Function.update world.station here { world.station here with mesh := mesh } }

def passed : World Switch :=
  { world with
    station := Function.update world.station here
      { world.station here with lastPass := world.now } }

end World

namespace Setting
variable [DecidableEq Switch] (setting : Setting Switch)

/-- `sendPacket:` of an identity that has a line, and a path or a relay for it. -/
def mail (here : Switch) (ref : IdentityRef) (peer : Peer) (now : Nat) (packets : List THPacket) :
    List (Datagram Switch) :=
  if peer.currentLine.isSome && (peer.hasActivePath || peer.hasPeerChannel) then
    match setting.switchOf here ref with
    | none => []
    | some there => packets.map fun packet => ⟨here, there, now, packet⟩
  else []

/-- A channel back in its place, and what it had to send on its way. -/
def put (here : Switch) (ref : IdentityRef) (channel : THUnreliableChannel)
    (world : World Switch) : World Switch :=
  let station := world.station here
  { world with
    station := Function.update world.station here
      { station with channel := Function.update station.channel ref { channel with outbox := [] } }
    flight := world.flight ++
      setting.mail here ref (station.mesh.peers ref) world.now channel.outbox }

def ask (here : Switch) (world : World Switch) : IdentityRef × Request → World Switch
  | (ref, .ping _) =>
      setting.put here ref (((world.station here).channel ref).sendPacket world.now seedPacket)
        world
  | _ => world

/-- The timer of a switch goes off. -/
def pass (here : Switch) (world : World Switch) : World Switch :=
  let mesh := (world.station here).mesh
  match pingLines setting.beyond mesh world.now with
  | .error _ => world
  | .ok after =>
      ((after.asked.drop mesh.asked.length).foldl (setting.ask here)
        (world.withMesh here after)).passed here

/-- A packet without a type comes to the link channel of the one it is from, or
to a channel that is not there. -/
def receive (here : Switch) (ref : IdentityRef) (packet : THPacket) (world : World Switch) :
    World Switch :=
  let station := world.station here
  let peer := station.mesh.peers ref
  let channel := station.channel ref
  match channelIdOf packet with
  | none => world
  | some channelId =>
      match peer.linkChannel.filter fun _ => channelId = channel.channelId with
      | none =>
          if Spurious packet then world
          else { world with
            flight := world.flight ++ setting.mail here ref peer world.now [errPacket channelId] }
      | some linkChannel =>
          let surroundings := ⟨world.now, setting.sees station.mesh ref, setting.application⟩
          let handled := channel.handlePacket (meshDelegate surroundings channel.lastOutActivity)
            world.now packet
          let heard := { linkChannel with lastInActivity := world.now, state := handled.state }
          let mesh := station.mesh.updatePeer ref fun peer =>
            { peer with linkChannel := if handled.registered then some heard else none }
          setting.put here ref handled (world.withMesh here mesh)

def step (world : World Switch) : Event Switch → World Switch
  | .tick => { world with now := world.now + 1 }
  | .pass here => setting.pass here world
  | .arrives place again =>
      match world.flight[place]? with
      | none => world
      | some datagram =>
          setting.receive datagram.receiver
            (setting.identity datagram.receiver datagram.sender) datagram.packet
            { world with
              flight := if again then world.flight else world.flight.eraseIdx place }

end Setting

/-- Time goes on only while no pass and no packet is overdue. -/
def OnTime (period delay : Nat) (world : World Switch) : Event Switch → Prop
  | .tick => (∀ here, world.now < (world.station here).lastPass + period) ∧
      ∀ datagram ∈ world.flight, world.now < datagram.sentAt + delay
  | .pass _ => True
  | .arrives place _ => place < world.flight.length

instance [Fintype Switch] (period delay : Nat) (world : World Switch) :
    (event : Event Switch) → Decidable (OnTime period delay world event)
  | .tick => inferInstanceAs (Decidable (_ ∧ _))
  | .pass _ => inferInstanceAs (Decidable True)
  | .arrives place _ => inferInstanceAs (Decidable (place < world.flight.length))

/-! ## A pass in which no link is stale -/

/-- The pings of a pass over some identities. -/
def pings (peers : IdentityRef → Peer) (identities : List IdentityRef) :
    List (IdentityRef × Request) :=
  identities.flatMap fun identity =>
    ((peers identity).linkChannel.map fun linkChannel =>
      (identity, Request.ping linkChannel.ref)).toList

/-- The identity has a link channel that is not stale, and a path or a relay. -/
def Fresh (checkTime : Nat) (peer : Peer) : Prop :=
  ∃ linkChannel, peer.linkChannel = some linkChannel ∧ stale checkTime linkChannel = false ∧
    (peer.hasActivePath || peer.hasPeerChannel) = true

def asking (mesh : Mesh) (requests : List (IdentityRef × Request)) : Mesh :=
  { mesh with asked := mesh.asked ++ requests }

section Pass
variable {beyond : Data} {checkTime : Nat}

theorem pingIdentity_fresh {bucketIndex idx : Nat} {identity : IdentityRef} {mesh : Mesh}
    (fresh : Fresh checkTime (mesh.peers identity)) :
    pingIdentity beyond checkTime bucketIndex idx identity mesh =
      .ok (asking mesh (pings mesh.peers [identity])) := by
  obtain ⟨linkChannel, linked, young, reachable⟩ := fresh
  unfold pingIdentity
  simp only [linked, young, Bool.false_eq_true, ↓reduceIte, reachable]
  simp [asking, pings, linked, Mesh.ask]

theorem pings_append (peers : IdentityRef → Peer) (before after : List IdentityRef) :
    pings peers (before ++ after) = pings peers before ++ pings peers after :=
  List.flatMap_append

theorem asking_asking (mesh : Mesh) (first second : List (IdentityRef × Request)) :
    asking (asking mesh first) second = asking mesh (first ++ second) := by
  simp only [asking, List.append_assoc]

theorem pingBucket_fresh {bucketIndex : Nat} (rest : List IdentityRef) (fuel : Nat)
    (seen : List IdentityRef) (mesh : Mesh)
    (found : mesh.table.buckets[bucketIndex]? = some (seen ++ rest))
    (fresh : ∀ identity ∈ rest, Fresh checkTime (mesh.peers identity))
    (enough : rest.length ≤ fuel) :
    pingBucket beyond checkTime bucketIndex fuel seen.length mesh =
      .ok (asking mesh (pings mesh.peers rest)) := by
  induction rest generalizing fuel seen mesh with
  | nil =>
      rw [pingBucket_past found (by simp)]
      simp [asking, pings]
  | cons identity rest ih =>
      obtain ⟨fuel, rfl⟩ := Nat.exists_eq_succ_of_ne_zero
        (Nat.ne_of_gt (Nat.lt_of_lt_of_le (Nat.succ_pos _) enough))
      obtain ⟨first, others⟩ := List.forall_mem_cons.mp fresh
      have found' : (asking mesh (pings mesh.peers [identity])).table.buckets[bucketIndex]? =
          some ((seen ++ [identity]) ++ rest) := by
        rw [List.append_assoc]
        exact found
      have later := ih fuel (seen ++ [identity]) (asking mesh (pings mesh.peers [identity])) found'
        others (Nat.le_of_succ_le_succ enough)
      rw [List.length_append, List.length_singleton] at later
      rw [pingBucket_turn found, pingIdentity_fresh first, ok_bind, later, asking_asking]
      exact congrArg (fun requests => Except.ok (asking mesh requests))
        (pings_append mesh.peers [identity] rest).symm

/-- A pass over fresh links pings every identity of the table and changes nothing. -/
theorem pingLines_fresh {mesh : Mesh}
    (fresh : ∀ identity ∈ mesh.table.buckets.flatten, Fresh checkTime (mesh.peers identity)) :
    pingLines beyond mesh checkTime =
      .ok (asking mesh (pings mesh.peers mesh.table.buckets.flatten)) := by
  have first : ∀ count ≤ mesh.table.buckets.length,
      (List.range count).foldlM (fun mesh bucketIndex =>
        pingBucket beyond checkTime bucketIndex
          (mesh.table.buckets.getD bucketIndex []).length 0 mesh) mesh =
        .ok (asking mesh (pings mesh.peers (mesh.table.buckets.take count).flatten)) := by
    intro count bound
    induction count with
    | zero => simp [asking, pings, pure, Except.pure]
    | succ count ih =>
        have inside : count < mesh.table.buckets.length := bound
        have found := List.getElem?_eq_getElem inside
        rw [List.range_succ, List.foldlM_append, ih (Nat.le_of_succ_le bound), ok_bind,
          List.foldlM_cons]
        dsimp only [asking]
        rw [List.getD_eq_getElem?_getD, found, Option.getD_some]
        have turn := @pingBucket_fresh beyond checkTime count mesh.table.buckets[count]
          mesh.table.buckets[count].length []
          (asking mesh (pings mesh.peers (mesh.table.buckets.take count).flatten)) found
          (fun identity member => fresh identity
            (List.mem_flatten.mpr ⟨_, List.getElem_mem inside, member⟩)) (Nat.le_refl _)
        rw [List.length_nil] at turn
        unfold asking at turn
        rw [turn, ok_bind, List.take_succ_eq_append_getElem inside, List.flatten_append,
          pings_append, List.flatten_singleton, List.append_assoc]
        rfl
  have whole := first mesh.table.buckets.length (Nat.le_refl _)
  rwa [List.take_length] at whole

end Pass

/-! ## Live links -/

/-- A packet of a channel that neither fails nor ends it, nor names anybody. -/
structure Plain (channelId : Nat) (packet : THPacket) : Prop where
  addressed : channelIdOf packet = some channelId
  fine : packet.objectForKey "err" = none
  goesOn : packet.objectForKey "end" = none
  nobody : packet.objectForKey "see" = none

/-- An open channel that has sent before and has nothing waiting. -/
structure Ready (channelId : Nat) (channel : THUnreliableChannel) : Prop where
  channelId : channel.channelId = channelId
  state : channel.state = .opened
  registered : channel.registered = true
  flushed : channel.packetBuffer = []
  active : channel.lastOutActivity ≠ 0

/-- The link channel of an identity is ready, and there is a line to send along. -/
structure Live (station : Station) (ref : IdentityRef) (channelId : Nat) : Prop where
  line : (station.mesh.peers ref).currentLine.isSome = true
  way : ((station.mesh.peers ref).hasActivePath || (station.mesh.peers ref).hasPeerChannel) = true
  ready : Ready channelId (station.channel ref)
  emptied : (station.channel ref).outbox = []

section Channels
variable {channelId : Nat} {channel : THUnreliableChannel} {now : Nat}

theorem plain_seed (channelId : Nat) :
    Plain channelId (seedPacket.setObject (.number channelId) "c") := by
  constructor <;>
    simp [channelIdOf, seedPacket, THPacket.new, initWithJson, THPacket.setObject,
      THPacket.objectForKey, Association.lookup_insert]

/-- A ready channel sends a ping at once. -/
theorem ready_ping (ready : Ready channelId channel) (emptied : channel.outbox = [])
    (started : now ≠ 0) :
    Ready channelId (channel.sendPacket now seedPacket) ∧
      ∃ packet, Plain channelId packet ∧ (channel.sendPacket now seedPacket).outbox = [packet] := by
  have alive : ¬ channel.state.Halted := by
    rw [ready.state]
    decide
  have plain := plain_seed channelId
  have goesOn : isEnd (seedPacket.setObject (.number channelId) "c") = false := by
    simp [isEnd, plain.goesOn, Json.boolValue]
  unfold THUnreliableChannel.sendPacket
  rw [if_neg alive]
  simp only [THUnreliableChannel.adoptType, THUnreliableChannel.sendAddressed, ready.state,
    ↓reduceIte, THUnreliableChannel.realSend, emptied, List.nil_append, ready.channelId, goesOn,
    ready.registered]
  exact ⟨⟨rfl, rfl, rfl, ready.flushed, started⟩, _, plain, rfl⟩

/-- A plain packet leaves a ready channel ready, and is answered with a ping or not at all. -/
theorem ready_handlePacket (ready : Ready channelId channel) (emptied : channel.outbox = [])
    (started : now ≠ 0) {surroundings : Surroundings} {packet : THPacket}
    (plain : Plain channelId packet) :
    let handled := channel.handlePacket (meshDelegate surroundings channel.lastOutActivity) now
      packet
    Ready channelId handled ∧ ∀ answer ∈ handled.outbox, Plain channelId answer := by
  have open_ : isEnd packet = false := by simp [isEnd, plain.goesOn, Json.boolValue]
  have typed : Ready channelId (channel.adoptType packet) :=
    ⟨ready.channelId, ready.state, ready.registered, ready.flushed, ready.active⟩
  have begun : (channel.adoptType packet).state ≠ .opening := by
    rw [typed.state]
    decide
  unfold THUnreliableChannel.handlePacket THUnreliableChannel.superHandlePacket
  simp only [plain.fine, open_, Bool.false_eq_true, and_false, ↓reduceIte, ne_eq, begun,
    not_false_eq_true]
  dsimp only [meshDelegate, meshHandlePacket]
  rw [if_neg ready.active]
  split
  · obtain ⟨after, ping, isPlain, sent⟩ := ready_ping typed emptied started
    refine ⟨after, fun answer member => ?_⟩
    have member : answer ∈ ((channel.adoptType packet).sendPacket now seedPacket).outbox := member
    rw [sent] at member
    rw [List.mem_singleton.mp member]
    exact isPlain
  · refine ⟨typed, fun answer member => ?_⟩
    have member : answer ∈ channel.outbox := member
    rw [emptied] at member
    cases member

end Channels

/-! ## Sending on live links -/

section Sending
variable {setting : Setting Switch} {here : Switch}

/-- A switch has sent something to some of its identities at the present time,
and nothing else has changed but their channels. -/
structure Mails (setting : Setting Switch) (here : Switch) (refs : List IdentityRef)
    (world after : World Switch) : Prop where
  now : after.now = world.now
  mesh : ∀ other, (after.station other).mesh = (world.station other).mesh
  lastPass : ∀ other, (after.station other).lastPass = (world.station other).lastPass
  live : ∀ other ref channelId, Live (world.station other) ref channelId →
    Live (after.station other) ref channelId
  flight : ∃ sent, after.flight = world.flight ++ sent ∧
    (∀ datagram ∈ sent, datagram.sender = here ∧ datagram.sentAt = world.now ∧
      setting.identity here datagram.receiver ∈ refs ∧
      Plain (setting.link here datagram.receiver) datagram.packet) ∧
    ∀ there, setting.identity here there ∈ refs → ∃ datagram ∈ sent, datagram.receiver = there

theorem Mails.refl (world : World Switch) : Mails setting here [] world world where
  now := rfl
  mesh := fun _ => rfl
  lastPass := fun _ => rfl
  live := fun _ _ _ live => live
  flight := ⟨[], (List.append_nil _).symm, List.forall_mem_nil _, fun _ member => nomatch member⟩

theorem Mails.trans {refs later : List IdentityRef} {world middle after : World Switch}
    (first : Mails setting here refs world middle)
    (second : Mails setting here later middle after) :
    Mails setting here (refs ++ later) world after where
  now := second.now.trans first.now
  mesh := fun other => (second.mesh other).trans (first.mesh other)
  lastPass := fun other => (second.lastPass other).trans (first.lastPass other)
  live := fun other ref channelId live =>
    second.live other ref channelId (first.live other ref channelId live)
  flight := by
    obtain ⟨sent, flies, theirs, reached⟩ := first.flight
    obtain ⟨sentLater, fliesLater, theirsLater, reachedLater⟩ := second.flight
    refine ⟨sent ++ sentLater, ?_, ?_, ?_⟩
    · rw [fliesLater, flies, List.append_assoc]
    · intro datagram member
      rcases List.mem_append.mp member with early | late
      · obtain ⟨own, fresh, goes, plain⟩ := theirs datagram early
        exact ⟨own, fresh, List.mem_append_left _ goes, plain⟩
      · obtain ⟨own, fresh, goes, plain⟩ := theirsLater datagram late
        exact ⟨own, fresh.trans first.now, List.mem_append_right _ goes, plain⟩
    · intro there member
      rcases List.mem_append.mp member with early | late
      · obtain ⟨datagram, inside, goes⟩ := reached there early
        exact ⟨datagram, List.mem_append_left _ inside, goes⟩
      · obtain ⟨datagram, inside, goes⟩ := reachedLater there late
        exact ⟨datagram, List.mem_append_right _ inside, goes⟩

variable [DecidableEq Switch]

/-- What a ready channel had to send goes to the identity it belongs to. -/
theorem put_mails {world : World Switch} {there : Switch} {channel : THUnreliableChannel}
    (live : Live (world.station here) (setting.identity here there) (setting.link here there))
    (ready : Ready (setting.link here there) channel)
    (plain : ∀ packet ∈ channel.outbox, Plain (setting.link here there) packet) :
    Mails setting here (channel.outbox.map fun _ => setting.identity here there) world
      (setting.put here (setting.identity here there) channel world) where
  now := rfl
  mesh := by
    intro other
    by_cases same : other = here
    · subst same
      simp [Setting.put]
    · simp [Setting.put, same]
  lastPass := by
    intro other
    by_cases same : other = here
    · subst same
      simp [Setting.put]
    · simp [Setting.put, same]
  live := by
    intro other ref channelId alive
    by_cases same : other = here
    · subst same
      by_cases its : ref = setting.identity other there
      · subst its
        have its := alive.ready.channelId.symm.trans live.ready.channelId
        simp only [Setting.put, Function.update_self]
        exact ⟨alive.line, alive.way, by simpa using ⟨ready.channelId.trans its.symm, ready.state,
          ready.registered, ready.flushed, ready.active⟩, by simp⟩
      · simp only [Setting.put, Function.update_self]
        refine ⟨alive.line, alive.way, ?_, ?_⟩
        · simpa [its] using alive.ready
        · simpa [its] using alive.emptied
    · simpa [Setting.put, same] using alive
  flight := by
    refine ⟨_, rfl, ?_, ?_⟩
    all_goals
      simp only [Setting.mail, live.line, live.way, Bool.and_self, ↓reduceIte, setting.known]
    · intro datagram member
      obtain ⟨packet, inside, rfl⟩ := List.mem_map.mp member
      exact ⟨rfl, rfl, List.mem_map.mpr ⟨packet, inside, rfl⟩, plain packet inside⟩
    · intro other member
      obtain ⟨packet, inside, same⟩ := List.mem_map.mp member
      have reached := setting.known here other
      rw [← same, setting.known] at reached
      exact ⟨_, List.mem_map.mpr ⟨packet, inside, rfl⟩, Option.some.inj reached⟩

/-- Pings to live identities all go out. -/
theorem pings_mail {peers : IdentityRef → Peer} (refs : List IdentityRef) (world : World Switch)
    (started : world.now ≠ 0)
    (others : ∀ ref ∈ refs, ∃ there, setting.identity here there = ref)
    (linked : ∀ ref ∈ refs, (peers ref).linkChannel.isSome)
    (live : ∀ there, setting.identity here there ∈ refs →
      Live (world.station here) (setting.identity here there) (setting.link here there)) :
    Mails setting here refs world ((pings peers refs).foldl (setting.ask here) world) := by
  induction refs generalizing world with
  | nil => exact Mails.refl world
  | cons ref rest ih =>
      obtain ⟨⟨there, rfl⟩, othersRest⟩ := List.forall_mem_cons.mp others
      obtain ⟨linkedFirst, linkedRest⟩ := List.forall_mem_cons.mp linked
      obtain ⟨linkChannel, held⟩ := Option.isSome_iff_exists.mp linkedFirst
      have alive := live there List.mem_cons_self
      have asked : pings peers (setting.identity here there :: rest) =
          (setting.identity here there, .ping linkChannel.ref) :: pings peers rest := by
        simp [pings, held]
      obtain ⟨ready, packet, plain, sent⟩ := ready_ping alive.ready alive.emptied started
      have first := put_mails alive ready (by
        rw [sent]
        exact List.forall_mem_singleton.mpr plain)
      rw [sent] at first
      rw [asked, List.foldl_cons]
      exact first.trans (ih _ (fun none => started (first.now.symm.trans none)) othersRest
        linkedRest fun other member =>
          first.live here _ _ (live other (List.mem_cons_of_mem _ member)))

end Sending

/-! ## Switches in touch -/

section Touch
variable (setting : Setting Switch) (period delay : Nat)

/-- The table of the one switch has the identity of the other. -/
def Knows (world : World Switch) (here there : Switch) : Prop :=
  setting.identity here there ∈ (world.station here).mesh.table.buckets.flatten

/-- The one has heard of the other since the other's last pass, or will hear of
it by a packet sent soon enough after the last one heard. -/
def Heard (world : World Switch) (here there : Switch) : Prop :=
  ∃ linkChannel,
    ((world.station here).mesh.peers (setting.identity here there)).linkChannel =
      some linkChannel ∧
    ((world.station there).lastPass ≤ linkChannel.lastInActivity ∨
      ∃ datagram ∈ world.flight, datagram.sender = there ∧ datagram.receiver = here ∧
        datagram.sentAt ≤ linkChannel.lastInActivity + period)

/-- Whoever is in a table is another switch that has this one in its own table,
under live links on both sides, and no pass is overdue. -/
structure Acquainted (world : World Switch) : Prop where
  started : world.now ≠ 0
  members : ∀ here, ∀ ref ∈ (world.station here).mesh.table.buckets.flatten,
    ∃ there, setting.identity here there = ref
  mutual_ : ∀ here there, Knows setting world here there → Knows setting world there here
  live : ∀ here there, Knows setting world here there →
    Live (world.station here) (setting.identity here there) (setting.link here there)
  passes : ∀ here, (world.station here).lastPass ≤ world.now ∧
    world.now ≤ (world.station here).lastPass + period

/-- A quiet moment: nothing is on its way, and all have heard of all they know
since those last went through their tables. -/
structure Begun (world : World Switch) : Prop extends Acquainted setting period world where
  heard : ∀ here there, Knows setting world here there → ∃ linkChannel,
    ((world.station here).mesh.peers (setting.identity here there)).linkChannel =
      some linkChannel ∧ (world.station there).lastPass ≤ linkChannel.lastInActivity
  quiet : world.flight = []

structure InTouch (world : World Switch) : Prop extends Acquainted setting period world where
  heard : ∀ here there, Knows setting world here there → Heard setting period world here there
  between : ∀ datagram ∈ world.flight,
    Knows setting world datagram.receiver datagram.sender ∧
      Plain (setting.link datagram.receiver datagram.sender) datagram.packet
  arrivals : ∀ datagram ∈ world.flight, world.now ≤ datagram.sentAt + delay

variable {setting period delay} {world : World Switch}

theorem Begun.inTouch (begun : Begun setting period world) :
    InTouch setting period delay world where
  toAcquainted := begun.toAcquainted
  heard := by
    intro here there knows
    obtain ⟨linkChannel, linked, since⟩ := begun.heard here there knows
    exact ⟨linkChannel, linked, Or.inl since⟩
  between := by
    rw [begun.quiet]
    exact List.forall_mem_nil _
  arrivals := by
    rw [begun.quiet]
    exact List.forall_mem_nil _

/-- Whoever is heard of has been silent for less than a period and a delay. -/
theorem InTouch.recent (inTouch : InTouch setting period delay world) {here there : Switch}
    (knows : Knows setting world here there) : ∃ linkChannel,
      ((world.station here).mesh.peers (setting.identity here there)).linkChannel =
        some linkChannel ∧ world.now ≤ linkChannel.lastInActivity + period + delay := by
  obtain ⟨linkChannel, linked, since | ⟨datagram, flies, _, _, soon⟩⟩ :=
    inTouch.heard here there knows
  · have punctual := (inTouch.passes there).2
    exact ⟨linkChannel, linked, by omega⟩
  · have punctual := inTouch.arrivals datagram flies
    exact ⟨linkChannel, linked, by omega⟩

theorem InTouch.fresh (inTouch : InTouch setting period delay world) (short : period + delay < 50)
    {here : Switch} :
    ∀ ref ∈ (world.station here).mesh.table.buckets.flatten,
      Fresh world.now ((world.station here).mesh.peers ref) := by
  intro ref member
  obtain ⟨there, rfl⟩ := inTouch.members here ref member
  obtain ⟨linkChannel, linked, recent⟩ := inTouch.recent member
  refine ⟨linkChannel, linked, ?_, (inTouch.live here there member).way⟩
  have young : ¬ linkChannel.lastInActivity + 50 ≤ world.now := by omega
  simp [stale, young]

/-- Without time going by, what keeps the tables and the live links and sends
only plain packets among those who know each other keeps them in touch. -/
theorem InTouch.follow {after : World Switch} (inTouch : InTouch setting period delay world)
    (now : after.now = world.now)
    (table : ∀ other, (after.station other).mesh.table = (world.station other).mesh.table)
    (lastPass : ∀ other, (world.station other).lastPass ≤ (after.station other).lastPass ∧
      (after.station other).lastPass ≤ world.now)
    (live : ∀ here there, Knows setting world here there →
      Live (after.station here) (setting.identity here there) (setting.link here there))
    (flight : ∀ datagram ∈ after.flight, datagram ∈ world.flight ∨
      (Knows setting world datagram.receiver datagram.sender ∧
        Plain (setting.link datagram.receiver datagram.sender) datagram.packet) ∧
        datagram.sentAt = world.now)
    (heard : ∀ here there, Knows setting world here there → Heard setting period after here there) :
    InTouch setting period delay after := by
  have knows : ∀ here there, Knows setting after here there ↔ Knows setting world here there := by
    intro here there
    rw [Knows, Knows, table]
  refine ⟨⟨?_, ?_, ?_, ?_, ?_⟩, ?_, ?_, ?_⟩
  · rw [now]
    exact inTouch.started
  · intro here
    rw [table]
    exact inTouch.members here
  · intro here there known
    exact (knows there here).mpr (inTouch.mutual_ here there ((knows here there).mp known))
  · exact fun here there known => live here there ((knows here there).mp known)
  · intro here
    rw [now]
    have bounds := inTouch.passes here
    have later := lastPass here
    omega
  · exact fun here there known => heard here there ((knows here there).mp known)
  · intro datagram member
    rw [knows]
    rcases flight datagram member with old | ⟨between, _⟩
    · exact inTouch.between datagram old
    · exact between
  · intro datagram member
    rw [now]
    rcases flight datagram member with old | ⟨_, sent⟩
    · exact inTouch.arrivals datagram old
    · omega

/-- Sending to whom one knows keeps all in touch. -/
theorem Mails.inTouch {after : World Switch} {here : Switch} {refs : List IdentityRef}
    (mails : Mails setting here refs world after) (inTouch : InTouch setting period delay world)
    (known : ∀ ref ∈ refs, ref ∈ (world.station here).mesh.table.buckets.flatten) :
    InTouch setting period delay after := by
  obtain ⟨sent, flies, theirs, _⟩ := mails.flight
  apply inTouch.follow mails.now
  · exact fun other => congrArg Mesh.table (mails.mesh other)
  · intro other
    rw [mails.lastPass]
    exact ⟨Nat.le_refl _, (inTouch.passes other).1⟩
  · exact fun here there knows => mails.live here _ _ (inTouch.live here there knows)
  · intro datagram member
    rw [flies] at member
    rcases List.mem_append.mp member with old | new
    · exact Or.inl old
    · obtain ⟨own, fresh, goes, plain⟩ := theirs datagram new
      rw [own, setting.shared]
      exact Or.inr ⟨⟨inTouch.mutual_ here datagram.receiver (known _ goes), plain⟩, fresh⟩
  · intro here there knows
    obtain ⟨linkChannel, linked, since⟩ := inTouch.heard here there knows
    refine ⟨linkChannel, by rw [mails.mesh]; exact linked, ?_⟩
    rw [mails.lastPass, flies]
    rcases since with since | ⟨datagram, inside, rest⟩
    · exact Or.inl since
    · exact Or.inr ⟨datagram, List.mem_append_left _ inside, rest⟩

end Touch

/-! ## Steps and runs -/

/-- A mesh with the same table and link channels, asked some more. -/
structure Stays (mesh after : Mesh) (requests : List (IdentityRef × Request)) : Prop where
  table : after.table = mesh.table
  links : ∀ ref, (after.peers ref).linkChannel.map LinkChannel.ref =
    (mesh.peers ref).linkChannel.map LinkChannel.ref
  asked : after.asked = mesh.asked ++ requests

theorem Stays.refl (mesh : Mesh) : Stays mesh mesh [] :=
  ⟨rfl, fun _ => rfl, (List.append_nil _).symm⟩

theorem Stays.trans {mesh middle after : Mesh} {requests later : List (IdentityRef × Request)}
    (first : Stays mesh middle requests) (second : Stays middle after later) :
    Stays mesh after (requests ++ later) where
  table := second.table.trans first.table
  links := fun ref => (second.links ref).trans (first.links ref)
  asked := by rw [second.asked, first.asked, List.append_assoc]

/-- What a pass over the whole table asks. -/
def passRequests (mesh : Mesh) : List (IdentityRef × Request) :=
  pings mesh.peers mesh.table.buckets.flatten

theorem Stays.passRequests {mesh after : Mesh} {requests : List (IdentityRef × Request)}
    (stays : Stays mesh after requests) : passRequests after = passRequests mesh := by
  have same : ∀ ref, ((after.peers ref).linkChannel.map fun linkChannel =>
      (ref, Request.ping linkChannel.ref)) =
        ((mesh.peers ref).linkChannel.map fun linkChannel =>
          (ref, Request.ping linkChannel.ref)) := by
    intro ref
    have here := congrArg (Option.map fun channel => (ref, Request.ping channel)) (stays.links ref)
    rwa [Option.map_map, Option.map_map] at here
  unfold KeepAlive.passRequests pings
  rw [stays.table]
  simp only [same]

section Steps
variable [DecidableEq Switch] {setting : Setting Switch} {period delay : Nat}
  {world : World Switch}

theorem withMesh_mesh (here other : Switch) (mesh : Mesh) :
    ((world.withMesh here mesh).station other).mesh =
      if other = here then mesh else (world.station other).mesh := by
  by_cases same : other = here <;> simp [World.withMesh, same]

@[simp] theorem withMesh_channel (here other : Switch) (mesh : Mesh) :
    ((world.withMesh here mesh).station other).channel = (world.station other).channel := by
  by_cases same : other = here <;> simp [World.withMesh, same]

@[simp] theorem withMesh_lastPass (here other : Switch) (mesh : Mesh) :
    ((world.withMesh here mesh).station other).lastPass = (world.station other).lastPass := by
  by_cases same : other = here <;> simp [World.withMesh, same]

@[simp] theorem passed_mesh (here other : Switch) :
    ((world.passed here).station other).mesh = (world.station other).mesh := by
  by_cases same : other = here <;> simp [World.passed, same]

@[simp] theorem passed_channel (here other : Switch) :
    ((world.passed here).station other).channel = (world.station other).channel := by
  by_cases same : other = here <;> simp [World.passed, same]

theorem passed_lastPass (here other : Switch) :
    ((world.passed here).station other).lastPass =
      if other = here then world.now else (world.station other).lastPass := by
  by_cases same : other = here <;> simp [World.passed, same]

/-- Asked requests change nothing else of a mesh. -/
theorem asked_inTouch (inTouch : InTouch setting period delay world) (here : Switch)
    (requests : List (IdentityRef × Request)) :
    InTouch setting period delay
      (world.withMesh here (asking (world.station here).mesh requests)) := by
  have mesh : ∀ other, ∃ asked,
      ((world.withMesh here (asking (world.station here).mesh requests)).station other).mesh =
        { (world.station other).mesh with asked := asked } := by
    intro other
    rw [withMesh_mesh]
    by_cases same : other = here
    · subst same
      exact ⟨_, if_pos rfl⟩
    · exact ⟨_, if_neg same⟩
  apply inTouch.follow
  · rfl
  · intro other
    obtain ⟨asked, same⟩ := mesh other
    rw [same]
  · exact fun other => by
      rw [withMesh_lastPass]
      exact ⟨Nat.le_refl _, (inTouch.passes other).1⟩
  · intro this there knows
    obtain ⟨asked, same⟩ := mesh this
    have live := inTouch.live this there knows
    refine ⟨?_, ?_, ?_, ?_⟩
    · rw [same]
      exact live.line
    · rw [same]
      exact live.way
    · rw [withMesh_channel]
      exact live.ready
    · rw [withMesh_channel]
      exact live.emptied
  · exact fun datagram member => Or.inl member
  · intro this there knows
    obtain ⟨asked, same⟩ := mesh this
    obtain ⟨linkChannel, linked, since⟩ := inTouch.heard this there knows
    refine ⟨linkChannel, ?_, ?_⟩
    · rw [same]
      exact linked
    · rw [withMesh_lastPass]
      exact since

/-- Once everyone in the table has been written to, the pass may count as done. -/
theorem passed_inTouch (inTouch : InTouch setting period delay world) {here : Switch}
    (rung : ∀ there, Knows setting world here there → ∃ datagram ∈ world.flight,
      datagram.sender = here ∧ datagram.receiver = there ∧ datagram.sentAt = world.now) :
    InTouch setting period delay (world.passed here) := by
  apply inTouch.follow
  · rfl
  · intro other
    rw [passed_mesh]
  · intro other
    have bounds := inTouch.passes other
    rw [passed_lastPass]
    split
    · exact ⟨bounds.1, Nat.le_refl _⟩
    · exact ⟨Nat.le_refl _, bounds.1⟩
  · intro this there knows
    have live := inTouch.live this there knows
    exact ⟨by rw [passed_mesh]; exact live.line, by rw [passed_mesh]; exact live.way,
      by rw [passed_channel]; exact live.ready, by rw [passed_channel]; exact live.emptied⟩
  · exact fun datagram member => Or.inl member
  · intro this there knows
    obtain ⟨linkChannel, linked, since⟩ := inTouch.heard this there knows
    refine ⟨linkChannel, by rw [passed_mesh]; exact linked, ?_⟩
    rcases since with since | flies
    · by_cases same : there = here
      · -- the ping of this pass follows soon on what was heard since the last one
        subst same
        obtain ⟨datagram, inside, sender, receiver, sent⟩ :=
          rung this (inTouch.mutual_ this there knows)
        have punctual := (inTouch.passes there).2
        exact Or.inr ⟨datagram, inside, sender, receiver, by omega⟩
      · rw [passed_lastPass, if_neg same]
        exact Or.inl since
    · exact Or.inr flies

/-- A pass keeps all in touch and asks a ping of everyone in the table. -/
theorem pass_spec (short : period + delay < 50) (inTouch : InTouch setting period delay world)
    (here : Switch) :
    InTouch setting period delay (setting.pass here world) ∧
      ∀ other, Stays (world.station other).mesh ((setting.pass here world).station other).mesh
        (if other = here then passRequests (world.station here).mesh else []) := by
  have ran := @pingLines_fresh setting.beyond world.now (world.station here).mesh
    (inTouch.fresh short)
  have asked := asked_inTouch inTouch here (passRequests (world.station here).mesh)
  have rings : Mails setting here (world.station here).mesh.table.buckets.flatten
      (world.withMesh here (asking (world.station here).mesh
        (passRequests (world.station here).mesh)))
      ((passRequests (world.station here).mesh).foldl (setting.ask here)
        (world.withMesh here (asking (world.station here).mesh
          (passRequests (world.station here).mesh)))) := by
    apply pings_mail _ _ asked.started (inTouch.members here)
    · intro ref member
      obtain ⟨linkChannel, linked, _⟩ := inTouch.fresh short ref member
      rw [linked]
      rfl
    · intro there member
      apply asked.live here there
      rw [Knows, withMesh_mesh, if_pos rfl]
      exact member
  have done : setting.pass here world =
      ((passRequests (world.station here).mesh).foldl (setting.ask here)
        (world.withMesh here (asking (world.station here).mesh
          (passRequests (world.station here).mesh)))).passed here := by
    rw [Setting.pass, ran]
    dsimp only [asking]
    rw [List.drop_left]
    rfl
  rw [done]
  have known : ∀ there, Knows setting world here there ↔ Knows setting
      (world.withMesh here (asking (world.station here).mesh
        (passRequests (world.station here).mesh))) here there := by
    intro there
    rw [Knows, Knows, withMesh_mesh, if_pos rfl]
    rfl
  constructor
  · apply passed_inTouch (rings.inTouch asked ?_)
    · intro there knows
      rw [Knows, rings.mesh] at knows
      obtain ⟨sent, flies, theirs, reached⟩ := rings.flight
      obtain ⟨datagram, inside, receiver⟩ := reached there ((known there).mpr knows)
      obtain ⟨sender, fresh, _⟩ := theirs datagram inside
      rw [flies]
      exact ⟨datagram, List.mem_append_right _ inside, sender, receiver, fresh.trans rings.now.symm⟩
    · intro ref member
      rw [withMesh_mesh, if_pos rfl]
      exact member
  · intro other
    rw [passed_mesh, rings.mesh, withMesh_mesh]
    by_cases same : other = here
    · subst same
      rw [if_pos rfl, if_pos rfl]
      exact ⟨rfl, fun _ => rfl, rfl⟩
    · rw [if_neg same, if_neg same]
      exact Stays.refl _

/-- The mesh with another state of the link channel of an identity. -/
def linkedBy (mesh : Mesh) (ref : IdentityRef) (linkChannel : LinkChannel) : Mesh :=
  mesh.updatePeer ref fun peer => { peer with linkChannel := some linkChannel }

theorem linkedBy_peer (mesh : Mesh) (ref other : IdentityRef) (linkChannel : LinkChannel) :
    (linkedBy mesh ref linkChannel).peers other =
      { mesh.peers other with
        linkChannel :=
          if other = ref then some linkChannel else (mesh.peers other).linkChannel } := by
  by_cases same : other = ref
  · subst same
    simp [linkedBy, Mesh.updatePeer]
  · simp [linkedBy, Mesh.updatePeer, same]

/-- The world once the mesh of a receiver has the time of what came from someone. -/
def hearing (setting : Setting Switch) (world : World Switch) (left : List (Datagram Switch))
    (datagram : Datagram Switch) (linkChannel : LinkChannel) : World Switch :=
  ({ world with flight := left } : World Switch).withMesh datagram.receiver
    (linkedBy (world.station datagram.receiver).mesh
      (setting.identity datagram.receiver datagram.sender) linkChannel)

/-- Of a packet that came in from someone known the link channel has the time. -/
theorem heard_inTouch (inTouch : InTouch setting period delay world) {datagram : Datagram Switch}
    (inside : datagram ∈ world.flight) {left : List (Datagram Switch)}
    (fewer : ∀ other ∈ left, other ∈ world.flight)
    (others : ∀ other ∈ world.flight, other ≠ datagram → other ∈ left)
    {linkChannel : LinkChannel} (heardNow : linkChannel.lastInActivity = world.now) :
    InTouch setting period delay (hearing setting world left datagram linkChannel) := by
  obtain ⟨known, _⟩ := inTouch.between datagram inside
  have mesh : ∀ other ref, ∃ held,
      ((hearing setting world left datagram linkChannel).station other).mesh.peers ref =
          { (world.station other).mesh.peers ref with linkChannel := held } ∧
        held = if other = datagram.receiver ∧
            ref = setting.identity datagram.receiver datagram.sender then some linkChannel
          else ((world.station other).mesh.peers ref).linkChannel := by
    intro other ref
    rw [hearing, withMesh_mesh]
    by_cases same : other = datagram.receiver
    · rw [if_pos same, linkedBy_peer, ← same]
      exact ⟨_, rfl, by simp⟩
    · rw [if_neg same]
      exact ⟨_, rfl, by simp [same]⟩
  apply inTouch.follow
  · rfl
  · intro other
    rw [hearing, withMesh_mesh]
    split
    case isTrue same => rw [same]; rfl
    case isFalse => rfl
  · intro other
    rw [hearing, withMesh_lastPass]
    exact ⟨Nat.le_refl _, (inTouch.passes other).1⟩
  · intro this there knows
    obtain ⟨held, same, _⟩ := mesh this (setting.identity this there)
    have live := inTouch.live this there knows
    refine ⟨?_, ?_, ?_, ?_⟩
    · rw [same]
      exact live.line
    · rw [same]
      exact live.way
    · rw [hearing, withMesh_channel]
      exact live.ready
    · rw [hearing, withMesh_channel]
      exact live.emptied
  · exact fun other member => Or.inl (fewer other member)
  · intro this there knows
    obtain ⟨held, same, which⟩ := mesh this (setting.identity this there)
    by_cases theirs : this = datagram.receiver ∧
        setting.identity this there = setting.identity datagram.receiver datagram.sender
    · obtain ⟨rfl, theirs⟩ := theirs
      have sender : there = datagram.sender := by
        have found := setting.known datagram.receiver there
        rw [theirs, setting.known] at found
        exact (Option.some.inj found).symm
      rw [if_pos ⟨rfl, theirs⟩] at which
      refine ⟨linkChannel, by rw [same, which], Or.inl ?_⟩
      rw [hearing, withMesh_lastPass, heardNow]
      exact (inTouch.passes there).1
    · rw [if_neg theirs] at which
      obtain ⟨linkChannel, linked, since⟩ := inTouch.heard this there knows
      refine ⟨linkChannel, by rw [same, which]; exact linked, ?_⟩
      rw [hearing, withMesh_lastPass]
      rcases since with since | ⟨other, flies, sender, receiver, soon⟩
      · exact Or.inl since
      · refine Or.inr ⟨other, others other flies ?_, sender, receiver, soon⟩
        rintro rfl
        exact theirs ⟨receiver.symm, by rw [sender, receiver]⟩

/-- A packet that comes in from someone known keeps all in touch. -/
theorem receive_spec (inTouch : InTouch setting period delay world) {datagram : Datagram Switch}
    (inside : datagram ∈ world.flight) {left : List (Datagram Switch)}
    (fewer : ∀ other ∈ left, other ∈ world.flight)
    (others : ∀ other ∈ world.flight, other ≠ datagram → other ∈ left) :
    let after := setting.receive datagram.receiver
      (setting.identity datagram.receiver datagram.sender) datagram.packet
      { world with flight := left }
    InTouch setting period delay after ∧
      ∀ other, Stays (world.station other).mesh (after.station other).mesh [] := by
  obtain ⟨knows, plain⟩ := inTouch.between datagram inside
  have live := inTouch.live _ _ knows
  obtain ⟨linkChannel, linked, _⟩ := inTouch.heard _ _ knows
  obtain ⟨ready, answers⟩ := @ready_handlePacket _ _ world.now live.ready live.emptied
    inTouch.started ⟨world.now, setting.sees (world.station datagram.receiver).mesh
      (setting.identity datagram.receiver datagram.sender), setting.application⟩ _ plain
  dsimp only
  unfold Setting.receive
  simp only [plain.addressed, linked, live.ready.channelId, decide_true, Option.filter_some,
    ready.registered, ↓reduceIte]
  generalize handles : ((world.station datagram.receiver).channel
    (setting.identity datagram.receiver datagram.sender)).handlePacket _ world.now
      datagram.packet = handled at ready answers ⊢
  have heard := @heard_inTouch _ _ _ _ _ _ inTouch _ inside _ fewer others
    { linkChannel with lastInActivity := world.now, state := handled.state } rfl
  have tables : ∀ other, Stays (world.station other).mesh
      ((hearing setting world left datagram { linkChannel with
        lastInActivity := world.now
        state := handled.state }).station other).mesh [] := by
    intro other
    rw [hearing, withMesh_mesh]
    by_cases same : other = datagram.receiver
    · subst same
      rw [if_pos rfl]
      refine ⟨rfl, fun ref => ?_, (List.append_nil _).symm⟩
      rw [linkedBy_peer]
      dsimp only
      split
      case isTrue its => rw [its, linked]; rfl
      case isFalse => rfl
    · rw [if_neg same]
      exact Stays.refl _
  have knows_ := knows
  rw [Knows, ← (tables _).table] at knows_
  have sends := put_mails (heard.live _ _ knows_) ready answers
  refine ⟨sends.inTouch heard ?_, fun other => ?_⟩
  · intro ref member
    obtain ⟨_, _, rfl⟩ := List.mem_map.mp member
    exact knows_
  · have mesh := sends.mesh other
    have stays := tables other
    rw [← mesh] at stays
    exact stays

/-- Every event on time keeps all in touch, and only a pass of its own asks
anything of a table. -/
theorem step_spec (short : period + delay < 50) (inTouch : InTouch setting period delay world)
    (event : Event Switch) (onTime : OnTime period delay world event) :
    InTouch setting period delay (setting.step world event) ∧
      ∀ here, Stays (world.station here).mesh ((setting.step world event).station here).mesh
        (if event = .pass here then passRequests (world.station here).mesh else []) := by
  cases event with
  | tick =>
      refine ⟨⟨⟨Nat.succ_ne_zero _, inTouch.members, inTouch.mutual_, inTouch.live, ?_⟩,
        inTouch.heard, inTouch.between, onTime.2⟩, fun here => Stays.refl _⟩
      exact fun here => ⟨Nat.le_succ_of_le (inTouch.passes here).1, onTime.1 here⟩
  | pass this =>
      obtain ⟨after, stays⟩ := pass_spec short inTouch this
      refine ⟨after, fun here => ?_⟩
      have stayed := stays here
      by_cases same : here = this
      · subst same
        simpa [Setting.step] using stayed
      · have other : ¬ this = here := fun equal => same equal.symm
        simpa [Setting.step, same, other] using stayed
  | arrives place again =>
      have found := List.getElem?_eq_getElem onTime
      have inside := List.getElem_mem onTime
      simp only [Setting.step, found, reduceCtorEq, ↓reduceIte]
      cases again with
      | true =>
          exact receive_spec inTouch inside (fun _ member => member) fun _ member _ => member
      | false =>
          apply receive_spec inTouch inside
          · exact fun _ member => List.mem_of_mem_eraseIdx member
          · intro other member different
            obtain ⟨index, at_⟩ := List.getElem?_of_mem member
            apply List.mem_eraseIdx_iff_getElem?.mpr
            refine ⟨index, fun same => different ?_, at_⟩
            rw [same, found] at at_
            exact (Option.some.inj at_).symm

theorem run_spec (short : period + delay < 50) (events : List (Event Switch))
    (inTouch : InTouch setting period delay world)
    (onTime : Along setting.step (OnTime period delay) world events) :
    InTouch setting period delay (run setting.step world events) ∧
      ∀ here, Stays (world.station here).mesh ((run setting.step world events).station here).mesh
        (List.replicate (events.count (.pass here))
          (passRequests (world.station here).mesh)).flatten := by
  induction events generalizing world with
  | nil => exact ⟨inTouch, fun here => Stays.refl _⟩
  | cons event rest ih =>
      obtain ⟨after, stays⟩ := step_spec short inTouch event onTime.1
      obtain ⟨final, later⟩ := ih after onTime.2
      refine ⟨final, fun here => ?_⟩
      have whole := (stays here).trans (later here)
      rw [(stays here).passRequests] at whole
      rw [List.count_cons]
      by_cases own : event = .pass here
      · simpa [own, List.replicate_succ] using whole
      · simpa [own] using whole

/-- However passes and arrivals interleave, as long as the passes of each switch
are `period` seconds apart at most and packets take `delay` at most, together
less than the fifty seconds of `pingLines`, no link is ever given up: every
table stays as it is, every link in it open and not stale, and every pass asks
one ping of each identity in the table and nothing else. -/
theorem links_stay_alive (short : period + delay < 50) (start : World Switch)
    (begun : Begun setting period start) (events : List (Event Switch))
    (onTime : Along setting.step (OnTime period delay) start events) (here : Switch) :
    let reached := run setting.step start events
    let mesh := (reached.station here).mesh
    mesh.table = (start.station here).mesh.table ∧
      (∀ there, setting.identity here there ∈ mesh.table.buckets.flatten →
        Live (reached.station here) (setting.identity here there) (setting.link here there) ∧
          Fresh reached.now (mesh.peers (setting.identity here there))) ∧
      mesh.asked = (start.station here).mesh.asked ++
        (List.replicate (events.count (.pass here))
          (passRequests (start.station here).mesh)).flatten := by
  obtain ⟨inTouch, stays⟩ := run_spec short events begun.inTouch onTime
  exact ⟨(stays here).table, fun there member =>
    ⟨inTouch.live here there member, inTouch.fresh short _ member⟩, (stays here).asked⟩

end Steps

/-! Two switches that know each other, and nobody else. -/

def pairSetting : Setting Bool where
  identity _ there := there.toNat
  switchOf _ ref := if ref = 0 then some false else if ref = 1 then some true else none
  known := by decide
  link _ _ := 2
  shared _ _ := rfl
  sees _ _ := []
  application := ⟨.none, fun _ _ => []⟩
  beyond := []

def pairStation (here : Bool) : Station where
  mesh :=
    { table := { THMeshBuckets.init none with
        buckets := (List.replicate 256 []).set 4 [(!here).toNat] }
      peers := fun _ =>
        { withHashname "" with
          linkChannel := some ⟨2, .unreliable, .opened, 40, 90⟩
          hasActivePath := true
          currentLine := some 0 }
      asked := [] }
  channel _ :=
    { initToIdentity 2 .meshBuckets with
      state := .opened
      type := some (.string "link")
      lastOutActivity := 80 }
  lastPass := 80

def pairStart : World Bool := ⟨100, pairStation, []⟩

/-- The one pings the other two seconds before it is answered, and its ping comes twice. -/
def pairEvents : List (Event Bool) :=
  [.pass false, .tick, .tick, .arrives 0 true, .pass true, .arrives 0 false, .tick,
    .arrives 1 false, .pass false]

theorem pair_members (here : Bool) :
    (pairStation here).mesh.table.buckets.flatten = [(!here).toNat] := by
  cases here <;> decide +kernel

theorem pair_begun : Begun pairSetting 25 pairStart := by
  refine ⟨⟨by decide, ?_, ?_, ?_, ?_⟩, ?_, rfl⟩
  · intro here ref member
    rw [pairStart, pair_members] at member
    exact ⟨!here, (List.mem_singleton.mp member).symm⟩
  · intro here there
    cases here <;> cases there <;> simp [Knows, pairStart, pair_members, pairSetting]
  · exact fun _ _ _ => ⟨rfl, rfl, ⟨rfl, rfl, rfl, rfl, Nat.succ_ne_zero _⟩, rfl⟩
  · exact fun _ => ⟨Nat.le_add_right 80 20, Nat.le_add_right 100 5⟩
  · exact fun _ _ _ => ⟨_, rfl, Nat.le_add_right 80 10⟩

theorem links_stay_alive_pair :
    Along pairSetting.step (OnTime 25 20) pairStart pairEvents ∧
      ((run pairSetting.step pairStart pairEvents).station false).mesh.asked =
        [(1, .ping 2), (1, .ping 2)] := by
  have onTime : Along pairSetting.step (OnTime 25 20) pairStart pairEvents := by decide +kernel
  refine ⟨onTime, ?_⟩
  rw [(links_stay_alive (by decide : 25 + 20 < 50) pairStart pair_begun pairEvents onTime
    false).2.2]
  decide +kernel

end Telehash.KeepAlive
