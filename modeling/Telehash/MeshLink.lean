import Telehash.LineDispatch
import Telehash.Runs
import Telehash.TwoSided

/-!
Two switches on one open line, each of which has started a link channel to the
other before it heard of the other's. Every packet is delivered once, in any
order, and what it provokes is delivered too.
-/

namespace Telehash.MeshLink
open Association Foundation Packet PacketBuffer CipherSet Channel UnreliableChannel LineDispatch
open Runs TwoSided THUnreliableChannel

/-- Both ends, what is on its way to each, and what each has been given. -/
structure Mesh where
  side : Side → LineSide
  inFlight : Side → List THPacket
  received : Side → List THPacket

/-- A delivery: the recipient, the place of the packet among those in flight. -/
structure Delivery where
  recipient : Side
  place : Nat
  surroundings : Surroundings

def answer (services : Services) (side : LineSide) (surroundings : Surroundings)
    (packet : THPacket) : LineSide :=
  match { side with sent := [] }.handlePacket services surroundings packet with
  | .ok after => after
  | .error _ => { side with sent := [] }

def step (services : Services) (mesh : Mesh) (delivery : Delivery) : Mesh :=
  let recipient := delivery.recipient
  match (mesh.inFlight recipient)[delivery.place]? with
  | none => mesh
  | some packet =>
      let after := answer services (mesh.side recipient) delivery.surroundings packet
      { side := Function.update mesh.side recipient after
        inFlight := Function.update
          (Function.update mesh.inFlight recipient
            ((mesh.inFlight recipient).eraseIdx delivery.place))
          recipient.other (mesh.inFlight recipient.other ++ after.sent)
        received := Function.update mesh.received recipient
          (mesh.received recipient ++ [packet]) }

/-- Both have run `linkToIdentity:`. -/
def linked (side : Side → LineSide) (surroundings : Side → Surroundings) : Mesh where
  side which := { side which with sent := [] }.linkToIdentity (surroundings which)
  inFlight which :=
    ({ side which.other with sent := [] }.linkToIdentity (surroundings which.other)).sent
  received _ := []

def Quiet (mesh : Mesh) : Prop := ∀ which, mesh.inFlight which = []

def linkIds (side : LineSide) : List Nat :=
  (side.channels.entries.filter fun entry => isLink entry.2).map Prod.fst

/-- One link channel on each side, under one id, and no error came for it. -/
def Converged (mesh : Mesh) : Prop :=
  ∃ channelId, ∀ which, linkIds (mesh.side which) = [channelId] ∧
    ∀ packet ∈ mesh.received which, channelIdOf packet = some channelId →
      packet.objectForKey "err" = none

/-- The id of the next channel an end opens. -/
def ownId (side : LineSide) : Nat := side.nextChannelId + 2

/-- No link channel on either side, and the two next ids differ and are not in
use on either side. -/
structure Unlinked (side : Side → LineSide) : Prop where
  noLinks : ∀ which id channel, (side which).channels.lookup id = some channel →
    isLink channel = false
  fresh : ∀ which other, (side which).channels.lookup (ownId (side other)) = none
  apart : ownId (side .near) ≠ ownId (side .far)

/-! ## Link channels -/

/-- A packet of a link channel that carries no type. -/
structure Untyped (ids : Side → Nat) (packet : THPacket) : Prop where
  untyped : packet.objectForKey "type" = none
  unnumbered : seqOf packet = none
  goesOn : packet.objectForKey "end" = none
  addressed : ∃ which, channelIdOf packet = some (ids which)

/-- An open link channel of the mesh, with nothing left to send but answers. -/
structure Link (ids : Side → Nat) (id : Nat) (channel : THUnreliableChannel) : Prop where
  channelId : channel.channelId = id
  delegate : channel.delegate = .meshBuckets
  state : channel.state = .opened
  type : channel.type = some (.string "link")
  registered : channel.registered = true
  flushed : channel.packetBuffer = []
  outbox : ∀ packet ∈ channel.outbox, Untyped ids packet

section Links
variable {ids : Side → Nat} {id : Nat} {channel : THUnreliableChannel}

theorem untyped_seed (known : ∃ which, id = ids which) (sees : List String) :
    Untyped ids (seedPacket.setObject (.number id) "c") ∧
      Untyped ids ((seePart sees seedPacket).setObject (.number id) "c") := by
  obtain ⟨which, rfl⟩ := known
  constructor <;> refine ⟨?_, ?_, ?_, which, ?_⟩ <;>
    simp [seedPacket, seePart, seqOf, channelIdOf, THPacket.new, initWithJson, THPacket.setObject,
      THPacket.objectForKey, lookup_insert]

theorem untyped_err (known : ∃ which, id = ids which) : Untyped ids (errPacket id) := by
  obtain ⟨which, rfl⟩ := known
  refine ⟨?_, ?_, ?_, which, ?_⟩ <;>
    simp [errPacket, seqOf, channelIdOf, THPacket.new, initWithJson, THPacket.setObject,
      THPacket.objectForKey, lookup_insert]

theorem link_adoptType (link : Link ids id channel) (packet : THPacket) :
    channel.adoptType packet = channel := by
  have typed := link.type
  cases channel
  simp_all [adoptType]

theorem link_sendPacket (link : Link ids id channel) (now : Nat) {packet : THPacket}
    (untyped : Untyped ids (packet.setObject (.number id) "c")) :
    Link ids id (channel.sendPacket now packet) := by
  have alive : ¬ channel.state.Halted := by
    rw [link.state]
    decide
  have goesOn : isEnd (packet.setObject (.number id) "c") = false := by
    simp [isEnd, untyped.goesOn, Json.boolValue]
  have active : Link ids id { channel with lastOutActivity := now } :=
    ⟨link.channelId, link.delegate, link.state, link.type, link.registered, link.flushed,
      link.outbox⟩
  unfold sendPacket
  rw [if_neg alive, link_adoptType active packet]
  simp only [sendAddressed, link.state, ↓reduceIte, realSend, link.channelId, goesOn,
    link.registered]
  refine ⟨rfl, link.delegate, rfl, link.type, rfl, link.flushed, ?_⟩
  intro sent member
  rcases List.mem_append.mp member with old | new
  · exact link.outbox sent old
  · cases List.mem_singleton.mp new
    exact untyped

theorem link_answers (link : Link ids id channel) (known : ∃ which, id = ids which)
    (surroundings : Surroundings) (lastOutActivity : Nat) :
    Link ids id
      (channel.performAll surroundings.now (meshHandlePacket surroundings lastOutActivity)) := by
  obtain ⟨seed, see⟩ := untyped_seed known surroundings.sees
  unfold meshHandlePacket
  split
  · split
    · exact link_sendPacket link _ see
    · exact link_sendPacket link _ seed
  · exact link

theorem link_goesOn (link : Link ids id channel) (known : ∃ which, id = ids which)
    (surroundings : Surroundings) {packet : THPacket}
    (goesOn : packet.objectForKey "end" = none) (fine : packet.objectForKey "err" = none) :
    Link ids id (channel.handlePacket (meshDelegate surroundings channel.lastOutActivity)
      surroundings.now packet) := by
  have open_ : isEnd packet = false := by simp [isEnd, goesOn, Json.boolValue]
  have started : channel.state ≠ .opening := by
    rw [link.state]
    decide
  unfold handlePacket superHandlePacket
  simp only [fine, link_adoptType link packet, open_, Bool.false_eq_true, and_false, ↓reduceIte,
    ne_eq, started, not_false_eq_true]
  exact link_answers link known surroundings _

/-- An error takes a link channel out of the table, and nothing is answered. -/
theorem link_fails (channel : THUnreliableChannel) (surroundings : Surroundings)
    {packet : THPacket} (goesOn : packet.objectForKey "end" = none)
    (failed : (packet.objectForKey "err").isSome) :
    (channel.handlePacket (meshDelegate surroundings channel.lastOutActivity)
        surroundings.now packet).registered = false ∧
      (channel.handlePacket (meshDelegate surroundings channel.lastOutActivity)
        surroundings.now packet).outbox = channel.outbox := by
  have open_ : isEnd packet = false := by simp [isEnd, goesOn, Json.boolValue]
  obtain ⟨err, failed⟩ := Option.isSome_iff_exists.mp failed
  unfold handlePacket superHandlePacket
  simp only [failed, meshDelegate, performAll, List.foldl_nil, setState, reduceCtorEq, ↓reduceIte,
    deregister, adoptType, ne_eq, not_false_eq_true, open_, Bool.false_eq_true, and_false]
  unfold meshHandlePacket
  split
  · split <;> simp [perform, sendPacket, THChannelState.Halted]
  · exact ⟨rfl, rfl⟩

/-- A packet leaves a link channel as it is, but for an answer, or closes it. -/
theorem link_handlePacket (link : Link ids id channel) (known : ∃ which, id = ids which)
    (surroundings : Surroundings) {packet : THPacket}
    (goesOn : packet.objectForKey "end" = none) :
    Link ids id (channel.handlePacket (meshDelegate surroundings channel.lastOutActivity)
        surroundings.now packet) ∨
      ((channel.handlePacket (meshDelegate surroundings channel.lastOutActivity)
          surroundings.now packet).registered = false ∧
        (channel.handlePacket (meshDelegate surroundings channel.lastOutActivity)
          surroundings.now packet).outbox = channel.outbox) := by
  cases failed : packet.objectForKey "err" with
  | none => exact Or.inl (link_goesOn link known surroundings goesOn failed)
  | some err => exact Or.inr (link_fails channel surroundings goesOn (by simp [failed]))

end Links

/-! ## One end -/

/-- The packet opens a link channel under the id. -/
structure Opens (id : Nat) (packet : THPacket) : Prop where
  typed : packet.objectForKey "type" = some (.string "link")
  unnumbered : seqOf packet = none
  goesOn : packet.objectForKey "end" = none
  addressed : channelIdOf packet = some id

/-- The two ids are only ever those of link channels, and no other channel is one. -/
structure Shape (ids : Side → Nat) (side : LineSide) : Prop where
  links : ∀ which channel, side.channels.lookup (ids which) = some channel →
    ∃ link, channel = .unreliable link ∧ Link ids (ids which) link ∧ link.outbox = []
  others : ∀ id channel, side.channels.lookup id = some channel → isLink channel = true →
    ∃ which, id = ids which

section Ends
variable {ids : Side → Nat} {side : LineSide}

theorem isLink_link {id : Nat} {channel : THUnreliableChannel} (link : Link ids id channel) :
    isLink (.unreliable channel) = true := by
  simp [isLink, THChannel.type, link.type]

theorem store_other {id other : Nat} (channel : THChannel) (different : other ≠ id) :
    (side.store id channel).channels.lookup other = side.channels.lookup other := by
  unfold LineSide.store
  split <;> dsimp only <;> split <;> simp [lookup_insert, lookup_erase, different]

theorem pass_link {id : Nat} {link : THUnreliableChannel} (shaped : Link ids id link)
    (surroundings : Surroundings) {packet : THPacket} (unnumbered : seqOf packet = none) :
    passPacket surroundings packet (.unreliable link) = .unreliable (link.handlePacket
      (meshDelegate surroundings link.lastOutActivity) surroundings.now packet) := by
  simp [passPacket, passUnreliable, opensAgain, unnumbered, delegateOf, shaped.delegate]

/-- A link channel goes back into its place or leaves it, and its answers go out. -/
theorem shape_store (shape : Shape ids side) {which : Side} {channel : THUnreliableChannel}
    (left : Link ids (ids which) channel ∨ (channel.registered = false ∧ channel.outbox = []))
    (sent : ∀ packet ∈ side.sent, Untyped ids packet) :
    Shape ids (side.store (ids which) (.unreliable channel)) ∧
      ∀ packet ∈ (side.store (ids which) (.unreliable channel)).sent, Untyped ids packet := by
  have here : (side.store (ids which) (.unreliable channel)).channels.lookup (ids which) = none ∨
      (Link ids (ids which) channel ∧
        (side.store (ids which) (.unreliable channel)).channels.lookup (ids which) =
          some (.unreliable { channel with outbox := [] })) := by
    rcases left with link | ⟨gone, _⟩
    · exact Or.inr ⟨link, by simp [LineSide.store, link.registered]⟩
    · exact Or.inl (by simp [LineSide.store, gone])
  constructor
  · constructor
    · intro other held found
      by_cases same : ids other = ids which
      · rw [same] at found ⊢
        rcases here with none | ⟨link, stored⟩
        · rw [none] at found
          cases found
        · rw [stored] at found
          cases found
          exact ⟨_, rfl, ⟨link.channelId, link.delegate, link.state, link.type, link.registered,
            link.flushed, List.forall_mem_nil _⟩, rfl⟩
      · rw [store_other _ same] at found
        exact shape.links other held found
    · intro id held found isALink
      by_cases same : id = ids which
      · exact ⟨which, same⟩
      · rw [store_other _ same] at found
        exact shape.others id held found isALink
  · intro packet member
    rcases List.mem_append.mp member with old | new
    · exact sent packet old
    · rcases left with link | ⟨_, nothing⟩
      · exact link.outbox packet new
      · rw [nothing] at new
        cases new

theorem shape_pass (shape : Shape ids side) {which : Side} {channel : THChannel}
    (surroundings : Surroundings) {packet : THPacket} (unnumbered : seqOf packet = none)
    (goesOn : packet.objectForKey "end" = none) (quiet : side.sent = [])
    (held : side.channels.lookup (ids which) = some channel) :
    Shape ids (side.store (ids which) (passPacket surroundings packet channel)) ∧
      ∀ reply ∈ (side.store (ids which) (passPacket surroundings packet channel)).sent,
        Untyped ids reply := by
  obtain ⟨link, rfl, shaped, empty⟩ := shape.links which channel held
  rw [pass_link shaped surroundings unnumbered]
  refine shape_store shape ?_ (by rw [quiet]; exact List.forall_mem_nil _)
  rcases link_handlePacket shaped ⟨which, rfl⟩ surroundings goesOn with open_ | ⟨gone, same⟩
  · exact Or.inl open_
  · exact Or.inr ⟨gone, same.trans empty⟩

theorem mem_linkChannel {id : Nat} {channel : THChannel}
    (found : side.linkChannel = some (id, channel)) :
    side.channels.lookup id = some channel ∧ isLink channel = true := by
  refine ⟨(lookup_some_iff _ _ _).mpr (List.mem_of_find?_eq_some found), ?_⟩
  simpa using List.find?_some found

theorem linkChannel_none (none : side.linkChannel = none) {id : Nat} {channel : THChannel}
    (held : side.channels.lookup id = some channel) : isLink channel = false := by
  have absent := List.find?_eq_none.mp none _ ((lookup_some_iff _ _ _).mp held)
  simpa using absent

/-- What one packet does to an end: the shape stays, the replies carry no type,
an id stays away unless the packet opens it, and opening the other end's id
gives up the own one. -/
structure Answered (ids : Side → Nat) (side : LineSide) (packet : THPacket) (after : LineSide) :
    Prop where
  shape : Shape ids after
  sent : ∀ reply ∈ after.sent, Untyped ids reply
  absent : ∀ which, side.channels.lookup (ids which) = none → ¬ Opens (ids which) packet →
    after.channels.lookup (ids which) = none
  dropped : ∀ which, side.channels.lookup (ids which) = none → Opens (ids which) packet →
    after.channels.lookup (ids which.other) = none

theorem answered_known (shape : Shape ids side) (quiet : side.sent = [])
    (apart : ∀ which : Side, ids which.other ≠ ids which)
    {which : Side} {channel : THChannel} (surroundings : Surroundings) {packet : THPacket}
    (unnumbered : seqOf packet = none) (goesOn : packet.objectForKey "end" = none)
    (addressed : channelIdOf packet = some (ids which))
    (held : side.channels.lookup (ids which) = some channel) :
    Answered ids side packet (side.store (ids which) (passPacket surroundings packet channel)) := by
  obtain ⟨shaped, sent⟩ := shape_pass shape surroundings unnumbered goesOn quiet held
  refine ⟨shaped, sent, ?_, ?_⟩
  · intro other gone _
    rcases side_cases which other with rfl | rfl
    · rw [held] at gone
      cases gone
    · rw [store_other _ (apart which)]
      exact gone
  · intro other gone opens
    have same : ids other = ids which := Option.some.inj (opens.addressed.symm.trans addressed)
    rw [same, held] at gone
    cases gone

theorem untyped_not_opens {id : Nat} {packet : THPacket}
    (untyped : packet.objectForKey "type" = none) : ¬ Opens id packet := by
  intro opens
  have typed := opens.typed
  rw [untyped] at typed
  cases typed

theorem answered_unknown (shape : Shape ids side) (quiet : side.sent = [])
    {which : Side} (surroundings : Surroundings) {packet : THPacket}
    (untyped : packet.objectForKey "type" = none) :
    Answered ids side packet (side.unknownChannel surroundings (ids which) none packet) := by
  have closed : ∀ id, ¬ Opens id packet := fun id => untyped_not_opens untyped
  unfold LineSide.unknownChannel
  dsimp only
  split
  · refine ⟨shape, ?_, fun _ gone _ => gone, fun _ _ opens => (closed _ opens).elim⟩
    rw [quiet]
    exact List.forall_mem_nil _
  · refine ⟨⟨shape.links, shape.others⟩, ?_, fun _ gone _ => gone,
      fun _ _ opens => (closed _ opens).elim⟩
    intro reply member
    rw [quiet] at member
    cases List.mem_singleton.mp member
    exact untyped_err ⟨which, rfl⟩

theorem removeLink_sent : side.removeLink.sent = side.sent := by
  unfold LineSide.removeLink
  split <;> rfl

theorem removeLink_holds {id : Nat} {channel : THChannel}
    (held : side.removeLink.channels.lookup id = some channel) :
    side.channels.lookup id = some channel := by
  unfold LineSide.removeLink at held
  split at held
  · exact held
  · rw [lookup_erase] at held
    split at held
    · cases held
    · exact held

theorem removeLink_shape (shape : Shape ids side) : Shape ids side.removeLink :=
  ⟨fun which channel held => shape.links which channel (removeLink_holds held),
    fun id channel held => shape.others id channel (removeLink_holds held)⟩

/-- An end without the one link channel loses the other. -/
theorem removeLink_other (shape : Shape ids side) {which : Side}
    (unknown : side.channels.lookup (ids which) = none) :
    side.removeLink.channels.lookup (ids which.other) = none := by
  unfold LineSide.removeLink
  cases found : side.linkChannel with
  | none =>
      by_contra held
      obtain ⟨channel, held⟩ := Option.ne_none_iff_exists'.mp held
      obtain ⟨link, rfl, shaped, _⟩ := shape.links which.other channel held
      have notLink := linkChannel_none found held
      rw [isLink_link shaped] at notLink
      cases notLink
  | some current =>
      obtain ⟨held, isALink⟩ := mem_linkChannel found
      obtain ⟨holder, same⟩ := shape.others _ _ held isALink
      rcases side_cases which holder with rfl | rfl
      · rw [same, unknown] at held
        cases held
      · dsimp only
        rw [same]
        exact lookup_erase_same _ _

/-- The link channel the line makes for a packet, before its first answer. -/
def inboundLink (id : Nat) : THUnreliableChannel :=
  { initToIdentity id .meshBuckets with
    state := .opened
    type := some (.string "link") }

theorem linkBranch_eq {id : Nat} (positive : id ≠ 0) (surroundings : Surroundings) :
    side.linkBranch surroundings id = side.removeLink.store id
      (.unreliable ((inboundLink id).performAll surroundings.now
        (meshHandlePacket surroundings 0))) := by
  simp [LineSide.linkBranch, LineSide.openId, LineSide.takeId, positive, initToIdentity,
    inboundLink]

theorem inboundLink_link {which : Side} : Link ids (ids which) (inboundLink (ids which)) :=
  ⟨rfl, rfl, rfl, rfl, rfl, rfl, List.forall_mem_nil _⟩

theorem inboundLink_answers (id : Nat) (surroundings : Surroundings) {reply : THPacket}
    (member : reply ∈ ((inboundLink id).performAll surroundings.now
      (meshHandlePacket surroundings 0)).outbox) : channelIdOf reply = some id := by
  unfold meshHandlePacket at member
  split at member
  · have only : reply = (seePart surroundings.sees seedPacket).setObject (.number id) "c" := by
      simpa [performAll, perform, sendPacket, inboundLink, initToIdentity, THChannelState.Halted,
        adoptType, sendAddressed, realSend] using member
    rw [only]
    simp [channelIdOf, seePart, seedPacket, THPacket.new, initWithJson, THPacket.setObject,
      THPacket.objectForKey]
  · simp [performAll, inboundLink, initToIdentity] at member

/-- The link channel of the end goes, if it has one, and the packet's takes its place. -/
theorem answered_link (shape : Shape ids side) (quiet : side.sent = [])
    (apart : ∀ which : Side, ids which.other ≠ ids which) {which : Side}
    (positive : ids which ≠ 0) (surroundings : Surroundings) {packet : THPacket}
    (opens : Opens (ids which) packet) (unknown : side.channels.lookup (ids which) = none) :
    Answered ids side packet (side.linkBranch surroundings (ids which)) := by
  have branch : side.linkBranch surroundings (ids which) = _ := linkBranch_eq positive surroundings
  obtain ⟨shaped, sent⟩ := shape_store (removeLink_shape shape)
    (Or.inl (link_answers inboundLink_link ⟨which, rfl⟩ surroundings 0))
    (by rw [removeLink_sent, quiet]; exact List.forall_mem_nil _)
  have gone : (side.linkBranch surroundings (ids which)).channels.lookup (ids which.other) =
      none := by
    rw [branch, store_other _ (apart which)]
    exact removeLink_other shape unknown
  rw [branch] at gone ⊢
  refine ⟨shaped, sent, ?_, ?_⟩
  · intro other _ closed
    rcases side_cases which other with rfl | rfl
    · exact (closed opens).elim
    · exact gone
  · intro other _ alsoOpens
    rcases side_cases which other with rfl | rfl
    · exact gone
    · have same := Option.some.inj (alsoOpens.addressed.symm.trans opens.addressed)
      exact (apart which same).elim

/-- What may be on its way to an end: packets without a type, and the packet
that opens the other end's link channel. -/
def Travels (ids : Side → Nat) (recipient : Side) (packet : THPacket) : Prop :=
  Untyped ids packet ∨ Opens (ids recipient.other) packet

section Answers
variable (services : Services) (surroundings : Surroundings) {packet : THPacket}

theorem answer_untyped {id : Nat} (untyped : packet.objectForKey "type" = none)
    (addressed : channelIdOf packet = some id) :
    answer services side surroundings packet =
      { side with sent := [] }.channelBranch surroundings id none packet := by
  simp [answer, LineSide.handlePacket, addressed, untyped, readText, pure, Except.pure, bind,
    Except.bind]

theorem answer_opens_unknown {id : Nat} (opens : Opens id packet)
    (unknown : side.channels.lookup id = none) :
    answer services side surroundings packet =
      { side with sent := [] }.linkBranch surroundings id := by
  simp [answer, LineSide.handlePacket, opens.addressed, opens.typed, readText, pure, Except.pure,
    bind, Except.bind, unknown]

theorem answer_opens_known {id : Nat} (opens : Opens id packet) {channel : THChannel}
    (held : side.channels.lookup id = some channel) :
    answer services side surroundings packet =
      { side with sent := [] }.store id (passPacket surroundings packet channel) := by
  simp [answer, LineSide.handlePacket, opens.addressed, opens.typed, readText, pure, Except.pure,
    bind, Except.bind, held, LineSide.channelBranch]

theorem answer_answered (shape : Shape ids side)
    (apart : ∀ which : Side, ids which.other ≠ ids which) (positive : ∀ which, ids which ≠ 0)
    {recipient : Side} (travels : Travels ids recipient packet) :
    Answered ids side packet (answer services side surroundings packet) := by
  have emptied : Shape ids { side with sent := [] } := ⟨shape.links, shape.others⟩
  have asked : ∀ after, Answered ids { side with sent := [] } packet after →
      Answered ids side packet after :=
    fun _ answered => ⟨answered.shape, answered.sent, answered.absent, answered.dropped⟩
  apply asked
  rcases travels with untyped | opens
  · obtain ⟨which, addressed⟩ := untyped.addressed
    rw [answer_untyped services surroundings untyped.untyped addressed, LineSide.channelBranch]
    cases held : side.channels.lookup (ids which) with
    | none => exact answered_unknown emptied rfl surroundings untyped.untyped
    | some channel =>
        exact answered_known emptied rfl apart surroundings untyped.unnumbered untyped.goesOn
          addressed held
  · cases held : side.channels.lookup (ids recipient.other) with
    | none =>
        rw [answer_opens_unknown services surroundings opens held]
        exact answered_link emptied rfl apart (positive _) surroundings opens held
    | some channel =>
        rw [answer_opens_known services surroundings opens held]
        exact answered_known emptied rfl apart surroundings opens.unnumbered opens.goesOn
          opens.addressed held

/-- The first answer to a link packet goes out on the channel of the packet. -/
theorem answer_opens_addressed {id : Nat} (positive : id ≠ 0) (opens : Opens id packet)
    (unknown : side.channels.lookup id = none) {reply : THPacket}
    (member : reply ∈ (answer services side surroundings packet).sent) :
    channelIdOf reply = some id := by
  rw [answer_opens_unknown services surroundings opens unknown, linkBranch_eq positive] at member
  rcases List.mem_append.mp member with old | new
  · rw [removeLink_sent] at old
    cases old
  · exact inboundLink_answers id surroundings new

/-- A packet for an id the end does not have is answered with an error, unless it is one. -/
theorem answer_absent {id : Nat} (untyped : packet.objectForKey "type" = none)
    (addressed : channelIdOf packet = some id) (unknown : side.channels.lookup id = none) :
    (answer services side surroundings packet).sent = [] ∨
      packet.objectForKey "err" = none ∧
        (answer services side surroundings packet).sent = [errPacket id] := by
  rw [answer_untyped services surroundings untyped addressed, LineSide.channelBranch]
  dsimp only
  rw [unknown]
  dsimp only [LineSide.unknownChannel]
  split
  · exact Or.inl rfl
  · rename_i wanted
    refine Or.inr ⟨?_, rfl⟩
    unfold Spurious at wanted
    simpa using (not_or.mp (not_or.mp wanted).2).1

/-- Nothing is sent back for an error. -/
theorem answer_err (shape : Shape ids side) (untyped : Untyped ids packet)
    (failed : (packet.objectForKey "err").isSome) :
    (answer services side surroundings packet).sent = [] := by
  obtain ⟨which, addressed⟩ := untyped.addressed
  cases held : side.channels.lookup (ids which) with
  | none =>
      rcases answer_absent services surroundings untyped.untyped addressed held with
        silent | ⟨fine, _⟩
      · exact silent
      · rw [fine] at failed
        cases failed
  | some channel =>
      obtain ⟨link, rfl, shaped, empty⟩ := shape.links which channel held
      have gone := (link_fails link surroundings untyped.goesOn failed).2
      rw [answer_untyped services surroundings untyped.untyped addressed, LineSide.channelBranch]
      dsimp only
      rw [held]
      dsimp only
      rw [pass_link shaped surroundings untyped.unnumbered]
      simp [LineSide.store, gone, empty]

end Answers

end Ends

/-! ## Runs -/

/-- Each end has given up its own link channel, or waits for the packet that
makes it do so. -/
structure Progress (ids : Side → Nat) (mesh : Mesh) : Prop where
  shape : ∀ which, Shape ids (mesh.side which)
  travels : ∀ which, ∀ packet ∈ mesh.inFlight which, Travels ids which packet
  phase : ∀ which, (mesh.side which).channels.lookup (ids which) = none ∨
    ((mesh.side which).channels.lookup (ids which.other) = none ∧
      ∃ packet ∈ mesh.inFlight which, Opens (ids which.other) packet)

section Mesh
variable {ids : Side → Nat}

theorem mem_eraseIdx_of_ne {packets : List THPacket} {place : Nat} {delivered packet : THPacket}
    (found : packets[place]? = some delivered) (member : packet ∈ packets)
    (different : packet ≠ delivered) : packet ∈ packets.eraseIdx place := by
  obtain ⟨index, here⟩ := List.mem_iff_getElem?.mp member
  refine List.mem_eraseIdx_iff_getElem?.mpr ⟨index, ?_, here⟩
  rintro rfl
  rw [found] at here
  exact different (Option.some.inj here).symm

section Delivered
variable {mesh : Mesh} {recipient : Side} {place : Nat} {packet : THPacket}
variable (services : Services) (surroundings : Surroundings)

theorem step_side (found : (mesh.inFlight recipient)[place]? = some packet) :
    (step services mesh ⟨recipient, place, surroundings⟩).side =
      Function.update mesh.side recipient
        (answer services (mesh.side recipient) surroundings packet) := by
  simp [step, found]

theorem step_inFlight_same (found : (mesh.inFlight recipient)[place]? = some packet) :
    (step services mesh ⟨recipient, place, surroundings⟩).inFlight recipient =
      (mesh.inFlight recipient).eraseIdx place := by
  simp [step, found, (other_ne recipient).symm]

theorem step_inFlight_other (found : (mesh.inFlight recipient)[place]? = some packet) :
    (step services mesh ⟨recipient, place, surroundings⟩).inFlight recipient.other =
      mesh.inFlight recipient.other ++
        (answer services (mesh.side recipient) surroundings packet).sent := by
  simp [step, found]

end Delivered

theorem progress_step (services : Services) (apart : ∀ which : Side, ids which.other ≠ ids which)
    (positive : ∀ which, ids which ≠ 0) (mesh : Mesh) (delivery : Delivery)
    (progress : Progress ids mesh) : Progress ids (step services mesh delivery) := by
  obtain ⟨recipient, place, surroundings⟩ := delivery
  cases found : (mesh.inFlight recipient)[place]? with
  | none => simpa [step, found] using progress
  | some packet =>
      have travels := progress.travels recipient packet (List.mem_of_getElem? found)
      have answered := answer_answered services surroundings (progress.shape recipient) apart
        positive travels
      have notOwn : ¬ Opens (ids recipient) packet := by
        intro opens
        rcases travels with untyped | theirs
        · exact untyped_not_opens untyped.untyped opens
        · exact apart recipient (Option.some.inj (theirs.addressed.symm.trans opens.addressed))
      constructor
      · intro which
        rw [step_side services surroundings found]
        rcases side_cases recipient which with rfl | rfl
        · simpa using answered.shape
        · simpa [other_ne] using progress.shape recipient.other
      · intro which sent member
        rcases side_cases recipient which with rfl | rfl
        · rw [step_inFlight_same services surroundings found] at member
          exact progress.travels _ sent (List.mem_of_mem_eraseIdx member)
        · rw [step_inFlight_other services surroundings found] at member
          rcases List.mem_append.mp member with old | new
          · exact progress.travels _ sent old
          · exact Or.inl (answered.sent sent new)
      · intro which
        rw [step_side services surroundings found]
        rcases side_cases recipient which with rfl | rfl
        · rw [step_inFlight_same services surroundings found, Function.update_self]
          rcases progress.phase which with gone | ⟨gone, waiting, member, opens⟩
          · exact Or.inl (answered.absent _ gone notOwn)
          · by_cases theirs : Opens (ids which.other) packet
            · left
              simpa using answered.dropped _ gone theirs
            · refine Or.inr ⟨answered.absent _ gone theirs, waiting, ?_, opens⟩
              apply mem_eraseIdx_of_ne found member
              rintro rfl
              exact theirs opens
        · rw [step_inFlight_other services surroundings found,
            Function.update_of_ne (other_ne _)]
          rcases progress.phase recipient.other with gone | ⟨gone, waiting, member, opens⟩
          · exact Or.inl gone
          · exact Or.inr ⟨gone, waiting, List.mem_append_left _ member, opens⟩

/-! ## Coming to rest -/

/-- What meets a channel that is gone, or an error: at most an error follows. -/
def Settled (ids : Side → Nat) (recipient : Side) (packet : THPacket) : Prop :=
  Untyped ids packet ∧
    (channelIdOf packet = some (ids recipient) ∨ (packet.objectForKey "err").isSome)

/-- Both ends have given up their own link channel. -/
structure Settling (ids : Side → Nat) (mesh : Mesh) : Prop where
  shape : ∀ which, Shape ids (mesh.side which)
  gone : ∀ which, (mesh.side which).channels.lookup (ids which) = none
  settled : ∀ which, ∀ packet ∈ mesh.inFlight which, Settled ids which packet

/-- An error may follow. -/
def wanting (packet : THPacket) : Bool := (packet.objectForKey "err").isNone

-- Each delivery takes one, and what may provoke an error counts twice.
def remaining (mesh : Mesh) (which : Side) : Nat :=
  (mesh.inFlight which).length + (mesh.inFlight which).countP wanting

theorem errPacket_err (id : Nat) : ((errPacket id).objectForKey "err").isSome := by
  simp [errPacket, THPacket.new, initWithJson, THPacket.setObject, THPacket.objectForKey,
    lookup_insert]

theorem answer_settled (services : Services) {side : LineSide} (shape : Shape ids side)
    {recipient : Side} (gone : side.channels.lookup (ids recipient) = none)
    (surroundings : Surroundings) {packet : THPacket} (settled : Settled ids recipient packet) :
    (answer services side surroundings packet).sent = [] ∨
      wanting packet = true ∧
        (answer services side surroundings packet).sent = [errPacket (ids recipient)] := by
  obtain ⟨untyped, addressed | failed⟩ := settled
  · rcases answer_absent services surroundings untyped.untyped addressed gone with
      silent | ⟨fine, sent⟩
    · exact Or.inl silent
    · exact Or.inr ⟨by simp [wanting, fine], sent⟩
  · exact Or.inl (answer_err services surroundings shape untyped failed)

theorem settling_step (services : Services) (apart : ∀ which : Side, ids which.other ≠ ids which)
    (positive : ∀ which, ids which ≠ 0) (mesh : Mesh) (delivery : Delivery)
    (settling : Settling ids mesh) : Settling ids (step services mesh delivery) := by
  obtain ⟨recipient, place, surroundings⟩ := delivery
  cases found : (mesh.inFlight recipient)[place]? with
  | none => simpa [step, found] using settling
  | some packet =>
      have settled := settling.settled recipient packet (List.mem_of_getElem? found)
      have travels : Travels ids recipient packet := Or.inl settled.1
      have answered := answer_answered services surroundings (settling.shape recipient) apart
        positive travels
      constructor
      · intro which
        rw [step_side services surroundings found]
        rcases side_cases recipient which with rfl | rfl
        · simpa using answered.shape
        · simpa [other_ne] using settling.shape recipient.other
      · intro which
        rw [step_side services surroundings found]
        rcases side_cases recipient which with rfl | rfl
        · rw [Function.update_self]
          exact answered.absent _ (settling.gone which) (untyped_not_opens settled.1.untyped)
        · simpa [other_ne] using settling.gone recipient.other
      · intro which sent member
        rcases side_cases recipient which with rfl | rfl
        · rw [step_inFlight_same services surroundings found] at member
          exact settling.settled _ sent (List.mem_of_mem_eraseIdx member)
        · rw [step_inFlight_other services surroundings found] at member
          rcases List.mem_append.mp member with old | new
          · exact settling.settled _ sent old
          · refine ⟨answered.sent sent new, Or.inr ?_⟩
            rcases answer_settled services (settling.shape recipient) (settling.gone recipient)
              surroundings settled with silent | ⟨_, only⟩
            · rw [silent] at new
              cases new
            · rw [only] at new
              cases List.mem_singleton.mp new
              exact errPacket_err _

/-- Each delivery leaves less to deliver. -/
theorem remaining_step (services : Services) {mesh : Mesh} (settling : Settling ids mesh)
    {recipient : Side} (surroundings : Surroundings) {packet : THPacket} {rest : List THPacket}
    (waiting : mesh.inFlight recipient = packet :: rest) :
    remaining (step services mesh ⟨recipient, 0, surroundings⟩) recipient +
        remaining (step services mesh ⟨recipient, 0, surroundings⟩) recipient.other <
      remaining mesh recipient + remaining mesh recipient.other := by
  have found : (mesh.inFlight recipient)[0]? = some packet := by simp [waiting]
  have settled := settling.settled recipient packet (List.mem_of_getElem? found)
  unfold remaining
  rw [step_inFlight_same services surroundings found,
    step_inFlight_other services surroundings found, waiting]
  rcases answer_settled services (settling.shape recipient) (settling.gone recipient)
    surroundings settled with silent | ⟨wants, only⟩
  · rw [silent]
    simp only [List.eraseIdx_zero, List.tail_cons, List.append_nil, List.length_cons,
      List.countP_cons]
    omega
  · have final : wanting (errPacket (ids recipient)) = false := by
      simpa [wanting] using errPacket_err (ids recipient)
    rw [only]
    simp only [List.eraseIdx_zero, List.tail_cons, List.length_cons, List.countP_cons, wants,
      ↓reduceIte, List.length_append, List.countP_append, List.countP_nil, List.length_nil, final,
      Bool.false_eq_true]
    omega

theorem settling_rests (services : Services) (apart : ∀ which : Side, ids which.other ≠ ids which)
    (positive : ∀ which, ids which ≠ 0) (surroundings : Surroundings) (mesh : Mesh)
    (settling : Settling ids mesh) :
    ∃ deliveries, (∀ delivery ∈ deliveries, delivery.surroundings = surroundings) ∧
      Quiet (run (step services) mesh deliveries) := by
  induction measure : remaining mesh .near + remaining mesh .far using Nat.strong_induction_on
    generalizing mesh with
  | _ total ih =>
      by_cases quiet : Quiet mesh
      · exact ⟨[], by simp, quiet⟩
      · obtain ⟨which, busy⟩ := not_forall.mp quiet
        obtain ⟨packet, rest, waiting⟩ := List.exists_cons_of_ne_nil busy
        have less := remaining_step services settling surroundings waiting
        obtain ⟨deliveries, same, rests⟩ := ih _
          (by cases which <;> simp only [Side.other] at less <;> omega)
          (step services mesh ⟨which, 0, surroundings⟩)
          (settling_step services apart positive mesh _ settling) rfl
        refine ⟨⟨which, 0, surroundings⟩ :: deliveries, ?_, rests⟩
        intro delivery member
        rcases List.mem_cons.mp member with rfl | later
        · rfl
        · exact same delivery later

end Mesh

/-! ## Crossing links -/

/-- The first packet of a link channel, as it goes out. -/
def openingPacket (id : Nat) (sees : List String) : THPacket :=
  ((LineSide.linkPacket sees).setObject (.string "link") "type").setObject (.number id) "c"

theorem openingPacket_opens (id : Nat) (sees : List String) :
    Opens id (openingPacket id sees) := by
  constructor <;>
    simp [openingPacket, LineSide.linkPacket, seedPacket, seePart, seqOf, channelIdOf,
      THPacket.new, initWithJson, THPacket.setObject, THPacket.objectForKey, lookup_insert]

theorem sendPacket_opening (id now : Nat) (sees : List String) :
    ({ initToIdentity id .meshBuckets with state := .opened } : THUnreliableChannel).sendPacket now
        ((LineSide.linkPacket sees).setObject (.string "link") "type") =
      { initToIdentity id .meshBuckets with
        state := .opened
        type := some (.string "link")
        lastOutActivity := now
        outbox := [openingPacket id sees] } := by
  have goesOn : isEnd (openingPacket id sees) = false := by
    simp [isEnd, (openingPacket_opens id sees).goesOn, Json.boolValue]
  have typed : ((LineSide.linkPacket sees).setObject (.string "link") "type").objectForKey "type" =
      some (.string "link") := objectForKey_setObject_same _ _ _ rfl
  unfold openingPacket at goesOn
  simp [sendPacket, THChannelState.Halted, adoptType, typed, sendAddressed, realSend,
    initToIdentity, goesOn, openingPacket]

/-- `linkToIdentity:` of an end without a link channel opens one under the next
id and sends the packet that opens it. -/
theorem linkToIdentity_opens (ids : Side → Nat) {side : LineSide} (surroundings : Surroundings)
    (noLinks : ∀ id channel, side.channels.lookup id = some channel → isLink channel = false) :
    ∃ link, Link ids (ownId side) link ∧ link.outbox = [] ∧
      ({ side with sent := [] }.linkToIdentity surroundings).channels =
        side.channels.insert (ownId side) (.unreliable link) ∧
      ({ side with sent := [] }.linkToIdentity surroundings).sent =
        [openingPacket (ownId side) surroundings.sees] := by
  have none : LineSide.linkChannel { side with sent := [] } = none := by
    cases found : LineSide.linkChannel { side with sent := [] } with
    | none => rfl
    | some current =>
        obtain ⟨held, isALink⟩ := mem_linkChannel found
        rw [noLinks _ _ held] at isALink
        cases isALink
  refine ⟨{ initToIdentity (ownId side) .meshBuckets with
      state := .opened
      type := some (.string "link")
      lastOutActivity := surroundings.now }, ?_, rfl, ?_, ?_⟩
  · exact ⟨rfl, rfl, rfl, rfl, rfl, rfl, List.forall_mem_nil _⟩
  all_goals
    unfold LineSide.linkToIdentity
    rw [none]
    dsimp only
    rw [sendPacket_opening]
    simp [LineSide.store, LineSide.openId, LineSide.takeId, initToIdentity, ownId]

theorem unlinked_apart {side : Side → LineSide} (unlinked : Unlinked side) (which : Side) :
    ownId (side which.other) ≠ ownId (side which) := by
  cases which with
  | near => exact unlinked.apart.symm
  | far => exact unlinked.apart

section Crossing
variable {side : Side → LineSide} (surroundings : Side → Surroundings)

/-- The packet that opens the channel of an end. -/
def opening (side : Side → LineSide) (surroundings : Side → Surroundings) (sender : Side) :
    THPacket :=
  openingPacket (ownId (side sender)) (surroundings sender).sees

theorem linked_inFlight (unlinked : Unlinked side) (which : Side) :
    (linked side surroundings).inFlight which = [opening side surroundings which.other] := by
  obtain ⟨_, _, _, _, sent⟩ := linkToIdentity_opens (fun held => ownId (side held))
    (surroundings which.other) (unlinked.noLinks which.other)
  exact sent

theorem linked_lacks (unlinked : Unlinked side) (which : Side) :
    ((linked side surroundings).side which).channels.lookup (ownId (side which.other)) = none := by
  obtain ⟨_, _, _, channels, _⟩ := linkToIdentity_opens (fun held => ownId (side held))
    (surroundings which) (unlinked.noLinks which)
  rw [linked, channels, lookup_insert_other _ _ _ _ (unlinked_apart unlinked which)]
  exact unlinked.fresh which which.other

theorem linked_shape (unlinked : Unlinked side) (which : Side) :
    Shape (fun held => ownId (side held)) ((linked side surroundings).side which) := by
  obtain ⟨link, shaped, empty, channels, _⟩ := linkToIdentity_opens
    (fun held => ownId (side held)) (surroundings which) (unlinked.noLinks which)
  constructor
  · intro held channel found
    rw [linked, channels, lookup_insert] at found
    split at found
    · rename_i same
      cases found
      exact ⟨link, rfl, same ▸ shaped, empty⟩
    · rw [unlinked.fresh] at found
      cases found
  · intro id channel found isALink
    rw [linked, channels, lookup_insert] at found
    split at found
    · rename_i same
      exact ⟨which, same⟩
    · rw [unlinked.noLinks which id channel found] at isALink
      cases isALink

theorem progress_linked (unlinked : Unlinked side) :
    Progress (fun which => ownId (side which)) (linked side surroundings) := by
  refine ⟨linked_shape surroundings unlinked, ?_, ?_⟩
  · intro which packet member
    rw [linked_inFlight surroundings unlinked] at member
    cases List.mem_singleton.mp member
    exact Or.inr (openingPacket_opens _ _)
  · intro which
    refine Or.inr ⟨linked_lacks surroundings unlinked which, _, ?_,
      openingPacket_opens _ (surroundings which.other).sees⟩
    rw [linked_inFlight surroundings unlinked]
    exact List.mem_singleton_self _

theorem progress_run (services : Services) (unlinked : Unlinked side)
    (deliveries : List Delivery) :
    Progress (fun which => ownId (side which))
      (run (step services) (linked side surroundings) deliveries) :=
  run_invariant
    (fun mesh delivery _ => progress_step services (unlinked_apart unlinked)
      (fun _ => Nat.succ_ne_zero _) mesh delivery)
    _ deliveries (progress_linked surroundings unlinked) (along_true _ _)

/-- One packet on its way to each end: after both deliveries the answers are. -/
theorem both_delivered (services : Services) (later : Surroundings) {mesh : Mesh}
    {packet : Side → THPacket} (alone : ∀ which, mesh.inFlight which = [packet which])
    (which : Side) :
    (run (step services) mesh [⟨.near, 0, later⟩, ⟨.far, 0, later⟩]).side which =
        answer services (mesh.side which) later (packet which) ∧
      (run (step services) mesh [⟨.near, 0, later⟩, ⟨.far, 0, later⟩]).inFlight which =
        (answer services (mesh.side which.other) later (packet which.other)).sent := by
  cases which <;> simp [step, alone, Side.other]

/-- One link packet to each end settles the mesh. -/
theorem linked_settles (services : Services) (unlinked : Unlinked side) (later : Surroundings) :
    Settling (fun which => ownId (side which))
      (run (step services) (linked side surroundings) [⟨.near, 0, later⟩, ⟨.far, 0, later⟩]) := by
  have opens (which : Side) : Opens (ownId (side which.other))
      (opening side surroundings which.other) := openingPacket_opens _ _
  have answered (which : Side) := answer_answered services later
    (linked_shape surroundings unlinked which) (unlinked_apart unlinked)
    (fun _ => Nat.succ_ne_zero _) (Or.inr (opens which))
  have delivered := both_delivered services later (linked_inFlight surroundings unlinked)
  constructor
  · intro which
    rw [(delivered which).1]
    exact (answered which).shape
  · intro which
    have dropped := (answered which).dropped which.other
      (linked_lacks surroundings unlinked which) (opens which)
    rw [(delivered which).1]
    rwa [other_other] at dropped
  · intro which reply member
    rw [(delivered which).2] at member
    refine ⟨(answered which.other).sent reply member, Or.inl ?_⟩
    have addressed := answer_opens_addressed services later (Nat.succ_ne_zero _)
      (opens which.other) (linked_lacks surroundings unlinked which.other) member
    rwa [other_other] at addressed

theorem crossed_apart (services : Services) (unlinked : Unlinked side)
    (deliveries : List Delivery)
    (quiet : Quiet (run (step services) (linked side surroundings) deliveries)) :
    ¬ Converged (run (step services) (linked side surroundings) deliveries) := by
  have progress := progress_run surroundings services unlinked deliveries
  rintro ⟨channelId, both⟩
  have held (which : Side) : ∃ channel,
      ((run (step services) (linked side surroundings) deliveries).side which).channels.lookup
          channelId = some channel ∧ isLink channel = true := by
    have listed : channelId ∈ linkIds
        ((run (step services) (linked side surroundings) deliveries).side which) := by
      rw [(both which).1]
      exact List.mem_singleton_self _
    obtain ⟨⟨id, channel⟩, member, rfl⟩ := List.mem_map.mp listed
    obtain ⟨entry, isALink⟩ := List.mem_filter.mp member
    exact ⟨channel, (lookup_some_iff _ _ _).mpr entry, isALink⟩
  obtain ⟨_, found, isALink⟩ := held .near
  obtain ⟨owner, rfl⟩ := (progress.shape .near).others _ _ found isALink
  obtain ⟨_, here, _⟩ := held owner
  rcases progress.phase owner with gone | ⟨_, _, member, _⟩
  · rw [gone] at here
    cases here
  · rw [quiet owner] at member
    cases member

/-- Crossing links always come to rest, and never on one link channel: each end
has dropped its own by the time nothing is in flight, whatever the order. -/
theorem links_never_converge (services : Services) (unlinked : Unlinked side)
    (later : Surroundings) :
    (∃ deliveries, (∀ delivery ∈ deliveries, delivery.surroundings = later) ∧
      Quiet (run (step services) (linked side surroundings) deliveries)) ∧
    ∀ deliveries, Quiet (run (step services) (linked side surroundings) deliveries) →
      ¬ Converged (run (step services) (linked side surroundings) deliveries) := by
  constructor
  · obtain ⟨deliveries, same, rests⟩ := settling_rests services (unlinked_apart unlinked)
      (fun _ => Nat.succ_ne_zero _) later _ (linked_settles surroundings services unlinked later)
    refine ⟨⟨.near, 0, later⟩ :: ⟨.far, 0, later⟩ :: deliveries, ?_, rests⟩
    simpa using same
  · exact crossed_apart surroundings services unlinked

end Crossing

/-! ## Two fresh ends -/

def idle : Services := ⟨fun side _ => .ok side, fun side _ => .ok side,
  fun side _ => .ok side, fun side _ => .ok side⟩

-- The end with the greater hashname numbers from 1.
def fresh : Side → LineSide
  | .near => ⟨.empty, 1, [], []⟩
  | .far => ⟨.empty, 2, [], []⟩

def today : Surroundings := ⟨1400000000, [], ⟨.none, fun _ _ => []⟩⟩

/-- The links cross, both first answers meet a channel that is gone, and the
errors close the channels they were sent on. -/
def crossing : List Delivery :=
  [⟨.near, 0, today⟩, ⟨.far, 0, today⟩, ⟨.far, 0, today⟩, ⟨.near, 0, today⟩,
    ⟨.near, 0, today⟩, ⟨.far, 0, today⟩]

def crossed : Mesh := run (step idle) (linked fresh fun _ => today) crossing

theorem unlinked_fresh : Unlinked fresh where
  noLinks which _ _ held := by cases which <;> cases held
  fresh which _ := by cases which <;> rfl
  apart := by decide

theorem quiet_crossed : Quiet crossed := by
  intro which
  cases which <;> rfl

theorem links_never_converge_fresh :
    (∃ deliveries, (∀ delivery ∈ deliveries, delivery.surroundings = today) ∧
      Quiet (run (step idle) (linked fresh fun _ => today) deliveries)) ∧ ¬ Converged crossed := by
  obtain ⟨rests, apart⟩ := links_never_converge (fun _ => today) idle unlinked_fresh today
  exact ⟨rests, apart crossing quiet_crossed⟩

/-- Both ends are left without a link channel, and an error came for each id. -/
theorem crossed_links_vanish :
    Quiet crossed ∧ (∀ which, linkIds (crossed.side which) = []) ∧
      (∀ which, (errPacket (ownId (fresh which.other))) ∈ crossed.received which) ∧
      ¬ Converged crossed := by
  have vanished : ∀ which, linkIds (crossed.side which) = [] := by
    intro which
    cases which <;> rfl
  refine ⟨quiet_crossed, vanished, ?_, ?_⟩
  · intro which
    cases which <;> exact List.mem_of_getElem? (i := 2) rfl
  · rintro ⟨channelId, both⟩
    have one := (both .near).1
    rw [vanished] at one
    cases one

end Telehash.MeshLink
