import Telehash.MeshLink

/-!
A link started at one end of an open line while the other end waits to hear of
it, as it does when a line is answered: who answers starts a link only after
two seconds, and only without one. Packets may come in any order and more than
once; once an end has heard of the link it pings and names peers on it at will.
-/

namespace Telehash.LinkInTurn
open Association Foundation Packet PacketBuffer CipherSet Channel UnreliableChannel LineDispatch
open MeshLink Runs TwoSided THUnreliableChannel

inductive Event where
  -- the packet may be on its way still after it came in
  | deliver (delivery : Delivery) (again : Bool)
  | linkToIdentity (which : Side) (surroundings : Surroundings)
  | ping (which : Side) (now : Nat)

/-- What an end did of itself goes on its way. -/
def send (mesh : Mesh) (which : Side) (acted : LineSide) : Mesh :=
  { mesh with
    side := Function.update mesh.side which acted
    inFlight := Function.update mesh.inFlight which.other
      (mesh.inFlight which.other ++ acted.sent) }

/-- The ping of `pingLines`. -/
def pingLink (side : LineSide) (now : Nat) : LineSide :=
  match side.linkChannel with
  | none => side
  | some (channelId, _) => side.sendOn now channelId seedPacket

def act (services : Services) (mesh : Mesh) : Event → Mesh
  | .deliver delivery again =>
      let after := step services mesh delivery
      if again then
        { after with
          inFlight := Function.update after.inFlight delivery.recipient
            (mesh.inFlight delivery.recipient) }
      else after
  | .linkToIdentity which surroundings =>
      send mesh which ({ mesh.side which with sent := [] }.linkToIdentity surroundings)
  | .ping which now => send mesh which (pingLink { mesh.side which with sent := [] } now)

/-- An end goes on about the link once it has heard of it. -/
def InTurn (mesh : Mesh) : Event → Prop
  | .deliver _ _ => True
  | .linkToIdentity which _ | .ping which _ => mesh.received which ≠ []

instance (mesh : Mesh) : (event : Event) → Decidable (InTurn mesh event)
  | .deliver _ _ => inferInstanceAs (Decidable True)
  | .linkToIdentity which _ | .ping which _ =>
      decidable_of_iff ((mesh.received which).isEmpty = false) (by simp [InTurn])

/-- The near end has run `linkToIdentity:`. -/
def started (side : Side → LineSide) (surroundings : Surroundings) : Mesh :=
  send ⟨side, fun _ => [], fun _ => []⟩ .near
    ({ side .near with sent := [] }.linkToIdentity surroundings)

/-! ## One end -/

/-- A packet of the one link channel that is no error. -/
def Goes (id : Nat) (packet : THPacket) : Prop :=
  (Untyped (fun _ => id) packet ∨ Opens id packet) ∧ packet.objectForKey "err" = none

/-- The end has the one link channel, and what it just sent are packets of it. -/
structure Holds (id : Nat) (side : LineSide) : Prop where
  shape : Shape (fun _ => id) side
  held : ∃ channel, side.channels.lookup id = some channel
  sent : ∀ packet ∈ side.sent, Goes id packet

section Ends
variable {id : Nat} {side : LineSide} {link : THUnreliableChannel}

/-- What a link channel sends when it has nothing else to send. -/
theorem link_sent (shaped : Link (fun _ => id) id link) (empty : link.outbox = []) (now : Nat)
    (packet : THPacket) :
    (link.sendPacket now packet).outbox = [packet.setObject (.number id) "c"] := by
  have alive : ¬ link.state.Halted := by
    rw [shaped.state]
    decide
  unfold sendPacket
  rw [if_neg alive]
  simp [sendAddressed, adoptType, shaped.state, realSend, empty, shaped.channelId]

theorem goes_seed (id : Nat) (sees : List String) :
    Goes id (seedPacket.setObject (.number id) "c") ∧
      Goes id ((seePart sees seedPacket).setObject (.number id) "c") := by
  obtain ⟨seed, see⟩ := @untyped_seed (fun _ => id) id ⟨.near, rfl⟩ sees
  refine ⟨⟨Or.inl seed, ?_⟩, Or.inl see, ?_⟩ <;>
    simp [seedPacket, seePart, THPacket.new, initWithJson, THPacket.setObject,
      THPacket.objectForKey, lookup_insert]

/-- A link channel in its place again, with what it sent on its way. -/
theorem holds_store (shape : Shape (fun _ => id) side) (shaped : Link (fun _ => id) id link)
    (fine : ∀ packet ∈ link.outbox, Goes id packet) (quiet : side.sent = []) :
    Holds id (side.store id (.unreliable link)) where
  shape := by
    apply (@shape_store (fun _ => id) side shape .near link (Or.inl shaped) ?_).1
    rw [quiet]
    exact List.forall_mem_nil _
  held := by
    simp only [LineSide.store, shaped.registered, ↓reduceIte]
    exact ⟨_, lookup_insert_same _ _ _⟩
  sent := by
    intro packet member
    rcases List.mem_append.mp member with old | new
    · rw [quiet] at old
      cases old
    · exact fine packet new

/-- The link channel an end holds is the only one it can find. -/
theorem holds_link (shape : Shape (fun _ => id) side)
    (held : ∃ channel, side.channels.lookup id = some channel) :
    ∃ link, side.linkChannel = some (id, .unreliable link) ∧
      side.channels.lookup id = some (.unreliable link) ∧ Link (fun _ => id) id link ∧
      link.outbox = [] := by
  obtain ⟨channel, held⟩ := held
  obtain ⟨link, rfl, shaped, empty⟩ := shape.links .near channel held
  refine ⟨link, ?_, held, shaped, empty⟩
  cases found : side.linkChannel with
  | none =>
      have none := linkChannel_none found held
      rw [isLink_link shaped] at none
      cases none
  | some current =>
      obtain ⟨there, isALink⟩ := mem_linkChannel found
      obtain ⟨_, same⟩ := shape.others _ _ there isALink
      rw [same, held] at there
      rw [← same, Option.some.inj there]

/-- A packet of the link that comes to a held link channel is answered on it or not at all. -/
theorem answer_holds (services : Services) (surroundings : Surroundings)
    (shape : Shape (fun _ => id) side)
    (held : ∃ channel, side.channels.lookup id = some channel) {packet : THPacket}
    (goes : Goes id packet) : Holds id (answer services side surroundings packet) := by
  obtain ⟨channel, held⟩ := held
  obtain ⟨link, rfl, shaped, empty⟩ := shape.links .near channel held
  have emptied : Shape (fun _ => id) { side with sent := [] } := ⟨shape.links, shape.others⟩
  obtain ⟨travels, fine⟩ := goes
  have both : seqOf packet = none ∧ packet.objectForKey "end" = none ∧
      answer services side surroundings packet =
        { side with sent := [] }.store id (passPacket surroundings packet (.unreliable link)) := by
    rcases travels with untyped | opens
    · obtain ⟨_, addressed⟩ := untyped.addressed
      refine ⟨untyped.unnumbered, untyped.goesOn, ?_⟩
      rw [answer_untyped services surroundings untyped.untyped addressed, LineSide.channelBranch]
      dsimp only
      rw [held]
    · exact ⟨opens.unnumbered, opens.goesOn, answer_opens_known services surroundings opens held⟩
  obtain ⟨unnumbered, goesOn, answered⟩ := both
  rw [answered, pass_link shaped surroundings unnumbered]
  refine holds_store emptied (link_goesOn shaped ⟨.near, rfl⟩ surroundings goesOn fine) ?_ rfl
  have open_ : isEnd packet = false := by simp [isEnd, goesOn, Json.boolValue]
  have begun : link.state ≠ .opening := by
    rw [shaped.state]
    decide
  obtain ⟨seed, see⟩ := goes_seed id surroundings.sees
  unfold THUnreliableChannel.handlePacket superHandlePacket
  simp only [fine, link_adoptType shaped packet, open_, Bool.false_eq_true, and_false, ↓reduceIte,
    ne_eq, begun, not_false_eq_true, meshDelegate, meshHandlePacket]
  split
  · split
    all_goals
      simp only [performAll, List.foldl_cons, List.foldl_nil, perform]
      rw [link_sent shaped empty]
      exact List.forall_mem_singleton.mpr ‹_›
  · rw [performAll, List.foldl_nil, empty]
    exact List.forall_mem_nil _

/-- The packet that opens the link makes an end hold it. -/
theorem opened_holds (services : Services) (surroundings : Surroundings)
    (shape : Shape (fun _ => id) side) (positive : id ≠ 0)
    (unknown : side.channels.lookup id = none) {packet : THPacket} (opens : Opens id packet) :
    Holds id (answer services side surroundings packet) := by
  have emptied : Shape (fun _ => id) { side with sent := [] } := ⟨shape.links, shape.others⟩
  rw [answer_opens_unknown services surroundings opens unknown, linkBranch_eq positive]
  have fresh : Link (fun _ => id) id (inboundLink id) :=
    @inboundLink_link (fun _ => id) .near
  obtain ⟨seed, see⟩ := goes_seed id surroundings.sees
  refine holds_store (removeLink_shape emptied) (link_answers fresh ⟨.near, rfl⟩ surroundings 0) ?_
    removeLink_sent
  unfold meshHandlePacket
  split
  · simp only [↓reduceIte, performAll, List.foldl_cons, List.foldl_nil, perform]
    rw [link_sent fresh rfl]
    exact List.forall_mem_singleton.mpr see
  · exact List.forall_mem_nil _

/-- A ping of an end that holds the link. -/
theorem pingLink_holds (shape : Shape (fun _ => id) side)
    (held : ∃ channel, side.channels.lookup id = some channel) (now : Nat) :
    Holds id (pingLink { side with sent := [] } now) := by
  have emptied : Shape (fun _ => id) { side with sent := [] } := ⟨shape.links, shape.others⟩
  obtain ⟨link, found, there, shaped, empty⟩ := holds_link emptied held
  obtain ⟨seed, _⟩ := goes_seed id []
  unfold pingLink LineSide.sendOn
  simp only [found, there]
  have untyped := (@untyped_seed (fun _ => id) id ⟨.near, rfl⟩ []).1
  refine holds_store emptied (link_sendPacket shaped now untyped) ?_ rfl
  rw [link_sent shaped empty]
  exact List.forall_mem_singleton.mpr seed

/-- `linkToIdentity:` of an end that holds the link names peers on it. -/
theorem linkToIdentity_holds (shape : Shape (fun _ => id) side)
    (held : ∃ channel, side.channels.lookup id = some channel) (surroundings : Surroundings) :
    Holds id ({ side with sent := [] }.linkToIdentity surroundings) := by
  have emptied : Shape (fun _ => id) { side with sent := [] } := ⟨shape.links, shape.others⟩
  obtain ⟨link, found, there, shaped, empty⟩ := holds_link emptied held
  obtain ⟨_, see⟩ := goes_seed id surroundings.sees
  have untyped := (@untyped_seed (fun _ => id) id ⟨.near, rfl⟩ surroundings.sees).2
  have kept := link_sendPacket shaped surroundings.now untyped
  unfold LineSide.linkToIdentity
  simp only [found]
  refine holds_store emptied ⟨kept.channelId, rfl, kept.state, kept.type, kept.registered,
    kept.flushed, kept.outbox⟩ ?_ rfl
  dsimp only [LineSide.linkPacket]
  rw [link_sent shaped empty]
  exact List.forall_mem_singleton.mpr see

theorem linkIds_holds (shape : Shape (fun _ => id) side)
    (held : ∃ channel, side.channels.lookup id = some channel) : linkIds side = [id] := by
  obtain ⟨link, _, there, shaped, _⟩ := holds_link shape held
  have once : (linkIds side).Nodup :=
    side.channels.unique.sublist (List.filter_sublist.map Prod.fst)
  have same : ∀ other ∈ linkIds side, other = id := by
    intro other member
    obtain ⟨⟨_, channel⟩, inside, rfl⟩ := List.mem_map.mp member
    obtain ⟨entry, isALink⟩ := List.mem_filter.mp inside
    obtain ⟨_, same⟩ := shape.others _ _ ((lookup_some_iff _ _ _).mpr entry) isALink
    exact same
  have there : id ∈ linkIds side := List.mem_map.mpr ⟨(id, .unreliable link),
    List.mem_filter.mpr ⟨(lookup_some_iff _ _ _).mp there, isLink_link shaped⟩, rfl⟩
  have all := List.eq_replicate_of_mem same
  rw [all, List.nodup_replicate] at once
  have some_ := List.length_pos_of_mem there
  rw [all, Nat.le_antisymm once some_]
  rfl

theorem linkIds_none
    (noLinks : ∀ other channel, side.channels.lookup other = some channel →
      isLink channel = false) : linkIds side = [] := by
  refine List.map_eq_nil_iff.mpr (List.filter_eq_nil_iff.mpr ?_)
  rintro ⟨other, channel⟩ inside
  simp [noLinks other channel ((lookup_some_iff _ _ _).mpr inside)]

end Ends

/-! ## Both ends -/

/-- The near end holds the link, and the far end does too once it has heard of
it, and no link until then; all that travels are packets of the link, and no
error has come. -/
structure Joined (id : Nat) (mesh : Mesh) : Prop where
  shape : ∀ which, Shape (fun _ => id) (mesh.side which)
  near : ∃ channel, (mesh.side .near).channels.lookup id = some channel
  travels : ∀ which, ∀ packet ∈ mesh.inFlight which, Goes id packet
  received : ∀ which, ∀ packet ∈ mesh.received which, packet.objectForKey "err" = none
  phase : (∃ channel, (mesh.side .far).channels.lookup id = some channel) ∧
      mesh.received .far ≠ [] ∨
    ((mesh.side .far).channels.lookup id = none ∧ (∀ which, mesh.received which = []) ∧
      mesh.inFlight .near = [] ∧ (∀ packet ∈ mesh.inFlight .far, Opens id packet) ∧
      linkIds (mesh.side .far) = [])

section Both
variable {id : Nat} {mesh : Mesh}

theorem Joined.held (joined : Joined id mesh) {which : Side} (heard : mesh.received which ≠ []) :
    ∀ side, ∃ channel, (mesh.side side).channels.lookup id = some channel := by
  intro side
  cases side with
  | near => exact joined.near
  | far =>
      rcases joined.phase with ⟨held, _⟩ | ⟨_, nothing, _⟩
      · exact held
      · exact (heard (nothing which)).elim

/-- What an end does of itself leaves the two joined, if both hold the link. -/
theorem send_joined (joined : Joined id mesh) {which : Side} {acted : LineSide}
    (holds : Holds id acted)
    (both : ∀ side, ∃ channel, (mesh.side side).channels.lookup id = some channel) :
    Joined id (send mesh which acted) := by
  have after : ∀ side, (send mesh which acted).side side = acted ∨
      (send mesh which acted).side side = mesh.side side := by
    intro side
    by_cases same : side = which
    · subst same
      exact Or.inl (Function.update_self _ _ _)
    · exact Or.inr (Function.update_of_ne same _ _)
  have held : ∀ side, ∃ channel,
      ((send mesh which acted).side side).channels.lookup id = some channel := by
    intro side
    rcases after side with same | same
    · rw [same]
      exact holds.held
    · rw [same]
      exact both side
  have heard : mesh.received .far ≠ [] := by
    rcases joined.phase with ⟨_, heard⟩ | ⟨unknown, _⟩
    · exact heard
    · obtain ⟨channel, known⟩ := both .far
      rw [unknown] at known
      cases known
  refine ⟨?_, held .near, ?_, joined.received, Or.inl ⟨held .far, heard⟩⟩
  · intro side
    rcases after side with same | same
    · rw [same]
      exact holds.shape
    · rw [same]
      exact joined.shape side
  · intro side packet member
    rcases side_cases which.other side with rfl | rfl
    · simp only [send, Function.update_self] at member
      rcases List.mem_append.mp member with old | new
      · exact joined.travels _ packet old
      · exact holds.sent packet new
    · simp only [send, Function.update_of_ne (other_ne _)] at member
      exact joined.travels _ packet member

/-- What a delivery does: the answer, and what is on its way and has come since. -/
structure Delivered (mesh : Mesh) (recipient : Side) (packet : THPacket) (answered : LineSide)
    (after : Mesh) : Prop where
  side : after.side = Function.update mesh.side recipient answered
  same : ∀ sent ∈ after.inFlight recipient, sent ∈ mesh.inFlight recipient
  other : after.inFlight recipient.other = mesh.inFlight recipient.other ++ answered.sent
  received : after.received =
    Function.update mesh.received recipient (mesh.received recipient ++ [packet])

theorem act_delivered (services : Services) {recipient : Side} {place : Nat} {packet : THPacket}
    (surroundings : Surroundings) (again : Bool)
    (found : (mesh.inFlight recipient)[place]? = some packet) :
    Delivered mesh recipient packet (answer services (mesh.side recipient) surroundings packet)
      (act services mesh (.deliver ⟨recipient, place, surroundings⟩ again)) := by
  have side := step_side services surroundings found
  have other := step_inFlight_other services surroundings found
  have received : (step services mesh ⟨recipient, place, surroundings⟩).received =
      Function.update mesh.received recipient (mesh.received recipient ++ [packet]) := by
    simp [step, found]
  cases again with
  | true =>
      refine ⟨side, ?_, ?_, received⟩
      · intro sent member
        simpa [act] using member
      · simpa [act, other_ne] using other
  | false =>
      refine ⟨side, ?_, other, received⟩
      intro sent member
      simp only [act, Bool.false_eq_true, ↓reduceIte] at member
      rw [step_inFlight_same services surroundings found] at member
      exact List.mem_of_mem_eraseIdx member

/-- The answer to a packet of the link comes from an end that holds it then. -/
theorem delivery_holds (services : Services) (positive : id ≠ 0) (joined : Joined id mesh)
    {recipient : Side} {packet : THPacket} (member : packet ∈ mesh.inFlight recipient)
    (surroundings : Surroundings) :
    Holds id (answer services (mesh.side recipient) surroundings packet) ∧
      (∃ channel, (mesh.side recipient.other).channels.lookup id = some channel) ∧
      (recipient = .near → mesh.received .far ≠ []) := by
  have goes := joined.travels recipient packet member
  have known := fun held => answer_holds services surroundings (joined.shape recipient) held goes
  cases recipient with
  | near =>
      rcases joined.phase with ⟨held, heard⟩ | ⟨_, _, nothing, _⟩
      · exact ⟨known joined.near, held, fun _ => heard⟩
      · rw [nothing] at member
        cases member
  | far =>
      refine ⟨?_, joined.near, nofun⟩
      rcases joined.phase with ⟨held, _⟩ | ⟨unknown, _, _, opens, _⟩
      · exact known held
      · exact opened_holds services surroundings (joined.shape .far) positive unknown
          (opens packet member)

/-- A delivered packet of the link leaves the two joined, whether or not it comes again. -/
theorem deliver_joined (services : Services) (positive : id ≠ 0) (joined : Joined id mesh)
    (delivery : Delivery) (again : Bool) :
    Joined id (act services mesh (.deliver delivery again)) := by
  obtain ⟨recipient, place, surroundings⟩ := delivery
  cases found : (mesh.inFlight recipient)[place]? with
  | none =>
      have nothing :
          act services mesh (.deliver ⟨recipient, place, surroundings⟩ again) = mesh := by
        cases again <;> simp [act, step, found]
      rwa [nothing]
  | some packet =>
      have member := List.mem_of_getElem? found
      have delivered := act_delivered services surroundings again found
      obtain ⟨holds, other, heard⟩ := delivery_holds services positive joined member surroundings
      generalize act services mesh (.deliver ⟨recipient, place, surroundings⟩ again) = after
        at delivered ⊢
      have shape : ∀ side, Shape (fun _ => id) (after.side side) ∧
          ∃ channel, (after.side side).channels.lookup id = some channel := by
        intro side
        rw [delivered.side]
        rcases side_cases recipient side with rfl | rfl
        · rw [Function.update_self]
          exact ⟨holds.shape, holds.held⟩
        · rw [Function.update_of_ne (other_ne _)]
          exact ⟨joined.shape _, other⟩
      refine ⟨fun side => (shape side).1, (shape .near).2, ?_, ?_, Or.inl ⟨(shape .far).2, ?_⟩⟩
      · intro side sent travels
        rcases side_cases recipient side with rfl | rfl
        · exact joined.travels _ sent (delivered.same sent travels)
        · rw [delivered.other] at travels
          rcases List.mem_append.mp travels with old | new
          · exact joined.travels _ sent old
          · exact holds.sent sent new
      · intro side came
        rw [delivered.received]
        rcases side_cases recipient side with rfl | rfl
        · rw [Function.update_self]
          intro inside
          rcases List.mem_append.mp inside with old | new
          · exact joined.received _ came old
          · rw [List.mem_singleton.mp new]
            exact (joined.travels _ packet member).2
        · rw [Function.update_of_ne (other_ne _)]
          exact joined.received _ came
      · rw [delivered.received]
        cases recipient with
        | near => simpa using heard rfl
        | far => simp

theorem act_joined (services : Services) (positive : id ≠ 0) (joined : Joined id mesh)
    (event : Event) (inTurn : InTurn mesh event) : Joined id (act services mesh event) := by
  cases event with
  | deliver delivery again => exact deliver_joined services positive joined delivery again
  | linkToIdentity which surroundings =>
      have both := joined.held inTurn
      exact send_joined joined (linkToIdentity_holds (joined.shape which) (both which) surroundings)
        both
  | ping which now =>
      have both := joined.held inTurn
      exact send_joined joined (pingLink_holds (joined.shape which) (both which) now) both

end Both

/-! ## Runs -/

section Runs
variable {side : Side → LineSide} (surroundings : Surroundings)

theorem started_joined
    (noLinks : ∀ which id channel, (side which).channels.lookup id = some channel →
      isLink channel = false)
    (fresh : (side .far).channels.lookup (ownId (side .near)) = none) :
    Joined (ownId (side .near)) (started side surroundings) := by
  obtain ⟨link, shaped, empty, channels, sent⟩ := linkToIdentity_opens
    (fun _ => ownId (side .near)) surroundings (noLinks .near)
  have near : (started side surroundings).side .near =
      ({ side .near with sent := [] }.linkToIdentity surroundings) := by
    simp [started, send]
  have far : (started side surroundings).side .far = side .far := by
    simp [started, send]
  have flies : (started side surroundings).inFlight .far =
      [openingPacket (ownId (side .near)) surroundings.sees] := by
    simp [started, send, Side.other, sent]
  have quiet : (started side surroundings).inFlight .near = [] := by
    simp [started, send, Side.other]
  have opens := openingPacket_opens (ownId (side .near)) surroundings.sees
  refine ⟨?_, ?_, ?_, fun _ => List.forall_mem_nil _,
    Or.inr ⟨?_, fun _ => rfl, quiet, ?_, ?_⟩⟩
  · intro which
    cases which with
    | near =>
        rw [near]
        constructor
        · intro _ channel found
          rw [channels, lookup_insert_same] at found
          cases found
          exact ⟨link, rfl, shaped, empty⟩
        · intro id channel found isALink
          rw [channels, lookup_insert] at found
          split at found
          case isTrue same => exact ⟨.near, same⟩
          case isFalse =>
            rw [noLinks .near id channel found] at isALink
            cases isALink
    | far =>
        rw [far]
        constructor
        · intro _ channel found
          rw [fresh] at found
          cases found
        · intro id channel found isALink
          rw [noLinks .far id channel found] at isALink
          cases isALink
  · rw [near, channels]
    exact ⟨_, lookup_insert_same _ _ _⟩
  · intro which packet member
    cases which with
    | near =>
        rw [quiet] at member
        cases member
    | far =>
        rw [flies] at member
        rw [List.mem_singleton.mp member]
        refine ⟨Or.inr opens, ?_⟩
        simp [openingPacket, LineSide.linkPacket, seePart, seedPacket, THPacket.new, initWithJson,
          THPacket.setObject, THPacket.objectForKey, lookup_insert]
  · rw [far]
    exact fresh
  · intro packet member
    rw [flies] at member
    rw [List.mem_singleton.mp member]
    exact opens
  · rw [far]
    exact linkIds_none (noLinks .far)

/-- A link started at one end converges, if the other end waits to hear of it:
whatever the order in which packets come, and come again, and whatever pings and
lists of peers either end sends once it has heard of the link, from the first
packet on that the far end takes in both hold one link channel under one id and
no error comes on it; until then the near end holds it alone and hears nothing,
and the far end holds no link channel. -/
theorem started_link_converges (services : Services)
    (noLinks : ∀ which id channel, (side which).channels.lookup id = some channel →
      isLink channel = false)
    (fresh : (side .far).channels.lookup (ownId (side .near)) = none) (events : List Event)
    (inTurn : Along (act services) InTurn (started side surroundings) events) :
    let reached := run (act services) (started side surroundings) events
    (reached.received .far ≠ [] → Converged reached) ∧
      (reached.received .far = [] → reached.received .near = [] ∧
        linkIds (reached.side .near) = [ownId (side .near)] ∧
        linkIds (reached.side .far) = []) := by
  have joined : Joined (ownId (side .near))
      (run (act services) (started side surroundings) events) :=
    run_invariant
      (fun mesh event allowed (joined : Joined (ownId (side .near)) mesh) =>
        act_joined services (Nat.succ_ne_zero _) joined event allowed)
      _ events (started_joined surroundings noLinks fresh) inTurn
  refine ⟨fun heard => ⟨ownId (side .near), fun which => ⟨?_, ?_⟩⟩, fun silent => ⟨?_, ?_, ?_⟩⟩
  · exact linkIds_holds (joined.shape which) (joined.held heard which)
  · exact fun packet member _ => joined.received which packet member
  · rcases joined.phase with ⟨_, heard⟩ | ⟨_, nothing, _⟩
    · exact (heard silent).elim
    · exact nothing .near
  · exact linkIds_holds (joined.shape .near) joined.near
  · rcases joined.phase with ⟨_, heard⟩ | ⟨_, _, _, _, none_⟩
    · exact (heard silent).elim
    · exact none_

end Runs

/-- The packet that opens the link comes twice; then both ends ping, and the far
one names its peers. -/
def turns : List Event :=
  [.deliver ⟨.far, 0, today⟩ true, .deliver ⟨.near, 0, today⟩ false, .ping .near 1400000025,
    .deliver ⟨.far, 0, today⟩ false, .linkToIdentity .far today, .deliver ⟨.far, 0, today⟩ true]

theorem started_link_converges_fresh :
    Converged (run (act idle) (started MeshLink.fresh today) turns) := by
  have noLinks : ∀ which id channel, (MeshLink.fresh which).channels.lookup id = some channel →
      isLink channel = false := unlinked_fresh.noLinks
  have inTurn : Along (act idle) InTurn (started MeshLink.fresh today) turns := by decide +kernel
  apply (started_link_converges today idle noLinks rfl turns inTurn).1
  rw [← List.isEmpty_eq_false_iff]
  decide +kernel

end Telehash.LinkInTurn
