import Telehash.ReliableInbound

/-!
The outgoing half of a reliable channel. `outward_step` is the induction rule
for it: a property that sending, halting, resending and further processing keep
holds after every event, once the acknowledgement of an arriving packet and a
change of state from outside are dealt with.
-/

namespace Telehash.ReliableOutbound
open Foundation Packet PacketBuffer OrderedChain Channel ReliableChannel ReliableViews
open ReliableInbound THReliableChannel

structure Outward (property : Outbound → Prop) : Prop where
  sends : ∀ (channel : THReliableChannel) (packet : THPacket), property (outbound channel) →
    property (outbound (channel.sendPacket packet))
  halts : ∀ (view : Outbound) (state : THChannelState), state.Halted → property view →
    property { view with state := state }
  resends : ∀ (channel : THReliableChannel) (miss : Json), property (outbound channel) →
    property (outbound (channel.resendMissingPackets miss))
  proceeds : ∀ (view : Outbound) (seq : Nat), view.lastProcessed ≤ seq → property view →
    property { view with lastProcessed := seq }
  flushes : ∀ channel : THReliableChannel, property (outbound channel) →
    property (outbound channel.flushOut)

section Rule
variable {property : Outbound → Prop} (outward : Outward property)
include outward

theorem outward_stable : Stable fun channel => property (outbound channel) where
  sends := outward.sends
  halts channel state halted holds := outward.halts (outbound channel) state halted holds
  deregisters _ holds := holds

theorem outward_hand (channel : THReliableChannel) (delegate : Delegate) (front : THPacketNode)
    (rest : List THPacketNode)
    (above : ∀ seq, seqOf front.packet = some seq → channel.lastProcessed ≤ seq)
    (holds : property (outbound channel)) :
    property (outbound (channel.handToDelegate delegate front.packet rest)) := by
  have performed : property (outbound ((channel.pop front.packet rest).performAll delegate
      (delegate.handlePacket front.packet))) :=
    stable_performAll (outward_stable outward) (channel.pop front.packet rest) delegate _ holds
  have untouched := inbound_performAll (channel.pop front.packet rest) delegate
    (delegate.handlePacket front.packet)
  have processed := congrArg Inbound.lastProcessed untouched
  unfold handToDelegate noteProcessed
  cases stamped : seqOf front.packet with
  | none => exact performed
  | some seq =>
      refine outward.proceeds (outbound _) seq ?_ performed
      exact Nat.le_trans (Nat.le_of_eq processed) (above seq stamped)

theorem outward_deliver (delegate : Delegate) (nodes : List THPacketNode)
    (channel : THReliableChannel) (held : channel.inPacketBuffer.chain = nodes)
    (ordered : InOrder (inbound channel)) (holds : property (outbound channel)) :
    property (outbound (deliver delegate nodes channel)) := by
  have stable := outward_stable outward
  induction nodes generalizing channel with
  | nil => exact holds
  | cons front rest ih =>
      have looked : property (outbound channel.lookForMissing) := holds
      unfold deliver
      by_cases expected : front.seq = channel.nextExpectedSequence
      · simp only [expected, ne_eq, not_true_eq_false, ↓reduceIte]
        have inside : front ∈ (inbound channel).inPacketBuffer.chain := by
          rw [show (inbound channel).inPacketBuffer.chain = front :: rest from held]
          exact List.mem_cons_self
        have above : ∀ seq, seqOf front.packet = some seq → channel.lastProcessed ≤ seq := by
          intro seq stamped
          rw [ordered.buffered front inside] at stamped
          cases stamped
          exact ordered.notBelow front inside
        have handed := outward_hand outward channel.lookForMissing delegate front rest above looked
        have view := inbound_handToDelegate channel.lookForMissing delegate front rest
        split
        · exact stable_close stable _ delegate (stable_setEnded stable _ delegate handed)
        · refine ih _ ?_ ?_ handed
          · exact congrArg (fun seen => seen.inPacketBuffer.chain) view
          · rw [view]
            exact inOrder_hand ordered held expected
      · simp only [ne_eq, expected, not_false_eq_true, ↓reduceIte]
        exact stable_outOfOrder stable _ looked

/-- Up to the acknowledgement an arriving packet only fails the channel and resends. -/
theorem outward_handleMiss (channel : THReliableChannel) (delegate : Delegate) (packet : THPacket)
    (holds : property (outbound channel)) :
    property (outbound (((channel.superHandlePacket delegate packet).sawSeq packet).handleMiss
      packet)) := by
  have failed := stable_superHandlePacket (outward_stable outward) channel delegate packet holds
  unfold handleMiss
  split
  · exact failed
  · exact outward.resends _ _ failed

theorem outward_handlePacket (channel : THReliableChannel) (delegate : Delegate)
    (packet : THPacket) (ordered : InOrder (inbound channel))
    (cleared : property (outbound (channel.beforeAdmission delegate packet))) :
    property (outbound (channel.handlePacket delegate packet)) := by
  let admitted := ((channel.beforeAdmission delegate packet).noteReceived packet).enqueue packet
  have view : outbound admitted = outbound (channel.beforeAdmission delegate packet) := by
    obtain ⟨_, changed⟩ := enqueue_eq
      ((channel.beforeAdmission delegate packet).noteReceived packet) packet
    simp only [admitted, changed]
    rfl
  have incoming : inbound admitted = receive (inbound channel) packet :=
    inbound_admitted channel delegate packet
  refine outward_deliver outward delegate _ admitted rfl ?_ ?_
  · rw [incoming]
    exact inOrder_receive ordered packet
  · rw [view]
    exact cleared

theorem outward_step (channel : THReliableChannel) (event : Event)
    (ordered : InOrder (inbound channel)) (holds : property (outbound channel))
    (cleared : ∀ delegate packet, event = .handlePacket delegate packet →
      property (outbound (channel.beforeAdmission delegate packet)))
    (moved : ∀ delegate state, event = .setState delegate state →
      property { outbound channel with state := state }) :
    property (outbound (step channel event)) := by
  have stable := outward_stable outward
  cases event with
  | handlePacket delegate packet =>
      exact outward_handlePacket outward channel delegate packet ordered
        (cleared delegate packet rfl)
  | sendPacket packet => exact outward.sends channel packet holds
  | close delegate => exact stable_close stable channel delegate holds
  | setState delegate state =>
      exact stable_performAll stable { channel with state := state } delegate _
        (moved delegate state rfl)
  | ackPing =>
      simp only [step, ackPing]
      split
      · exact outward.sends channel _ holds
      · exact holds
  | flushOut => exact outward.flushes channel holds

end Rule

/-! What `sendPacket:` writes. -/

theorem seqOf_content {packet : THPacket} {seq : Nat} (stamped : seqOf packet = some seq) :
    isContent packet = true := by
  obtain ⟨value, found, _⟩ := Option.map_eq_some_iff.mp stamped
  cases stored : packet.json with
  | none =>
      simp [THPacket.objectForKey, stored] at found
  | some json =>
      have filled : 0 < json.count := by
        apply Nat.pos_of_ne_zero
        intro none
        rw [(Association.count_zero_iff json).mp none] at stored
        simp [THPacket.objectForKey, stored] at found
      simp [isContent, THPacket.jsonCount, stored, filled]

theorem seqOf_outgoing (channel : THReliableChannel) (packet : THPacket) :
    seqOf (channel.outgoing packet) = seqOf (channel.stampSeq packet) := by
  unfold seqOf outgoing
  rw [stampAck_objectForKey _ _ (by decide), stampId_objectForKey _ _ (by decide),
    stampMiss_objectForKey _ _ (by decide)]

theorem setObject_number {packet : THPacket} {key : String} {value read : Nat}
    (found : ((packet.setObject (.number value) key).objectForKey key).map
      Json.unsignedIntegerValue = some read) : read = value % uintModulus := by
  cases stored : packet.json with
  | none =>
      rw [objectForKey_setObject_absent packet key key _ stored] at found
      cases found
  | some json =>
      rw [objectForKey_setObject_same packet key _ (by simp [stored])] at found
      simp only [Option.map_some, Json.unsignedIntegerValue, Option.some.injEq] at found
      omega

/-- The only sequence number a packet goes out with is the current one, and
only content takes it. -/
theorem outgoing_seq {channel : THReliableChannel} {packet : THPacket} {seq : Nat}
    (stamped : seqOf (channel.outgoing packet) = some seq) :
    isContent packet = true ∧ seq = channel.sequence % uintModulus := by
  rw [seqOf_outgoing] at stamped
  unfold stampSeq at stamped
  split at stamped
  · rename_i content
    exact ⟨content, setObject_number stamped⟩
  · rename_i bare
    exact absurd (seqOf_content stamped) bare

theorem outgoing_seqObject {channel : THReliableChannel} {packet : THPacket}
    (json : packet.json.isSome) (content : isContent packet = true) :
    (channel.outgoing packet).objectForKey "seq" = some (.number channel.sequence) := by
  unfold outgoing
  rw [stampAck_objectForKey _ _ (by decide), stampId_objectForKey _ _ (by decide),
    stampMiss_objectForKey _ _ (by decide), stampSeq, if_pos content]
  exact objectForKey_setObject_same packet "seq" _ json

theorem outgoing_content_seq {channel : THReliableChannel} {packet : THPacket}
    (json : packet.json.isSome) (content : isContent packet = true)
    (small : channel.sequence < uintModulus) :
    seqOf (channel.outgoing packet) = some channel.sequence := by
  rw [seqOf, outgoing_seqObject json content, Option.map_some, unsignedIntegerValue_natural _ small]

theorem outgoing_bare_seq {channel : THReliableChannel} {packet : THPacket}
    (bare : isContent packet = false) : seqOf (channel.outgoing packet) = none := by
  cases read : seqOf (channel.outgoing packet) with
  | none => rfl
  | some seq =>
      have numbered := (outgoing_seq read).1
      rw [bare] at numbered
      cases numbered

theorem outgoing_ack {channel : THReliableChannel} {packet : THPacket} {ack : Nat}
    (behind : channel.lastAck ≤ channel.lastProcessed)
    (stamped : ackOf (channel.outgoing packet) = some ack) : ack ≤ channel.lastProcessed := by
  simp only [outgoing, stampAck, behind, ↓reduceIte, ackOf] at stamped
  have same := setObject_number stamped
  have bound := Nat.mod_le channel.lastProcessed uintModulus
  omega

theorem outgoing_content (channel : THReliableChannel) (packet : THPacket) :
    SameContent (channel.outgoing packet) packet := by
  have seqStep : SameContent (channel.stampSeq packet) packet := by
    unfold stampSeq
    split
    · exact sameContent_setObject packet _ (by decide)
    · exact sameContent_refl packet
  have missStep : ∀ other, SameContent (channel.stampMiss other) other := by
    intro other
    unfold stampMiss
    split
    · exact sameContent_setObject other _ (by decide)
    · exact sameContent_refl other
  have ackStep : ∀ other, SameContent (channel.stampAck other) other := by
    intro other
    unfold stampAck
    split
    · exact sameContent_setObject other _ (by decide)
    · exact sameContent_refl other
  have idStep : ∀ other, SameContent (channel.stampId other) other :=
    fun other => sameContent_setObject other _ (by decide)
  exact sameContent_trans (ackStep _)
    (sameContent_trans (idStep _) (sameContent_trans (missStep _) seqStep))

@[simp] theorem seqOf_withoutMiss (packet : THPacket) :
    seqOf (withoutMiss packet) = seqOf packet := by
  unfold seqOf withoutMiss
  rw [objectForKey_removeObject_other packet "miss" "seq" (by decide)]

@[simp] theorem ackOf_withoutMiss (packet : THPacket) :
    ackOf (withoutMiss packet) = ackOf packet := by
  unfold ackOf withoutMiss
  rw [objectForKey_removeObject_other packet "miss" "ack" (by decide)]

theorem withoutMiss_content (packet : THPacket) : SameContent (withoutMiss packet) packet :=
  sameContent_removeObject packet (by decide)

/-- A packet the channel may put on the network, now or when it resends. -/
def Sent (view : Outbound) (packet : THPacket) : Prop :=
  packet ∈ view.transmitted ∨ ∃ node ∈ view.outPacketBuffer.chain, node.packet = packet

/-- What holds of the outgoing half between any two calls: no acknowledgement
runs ahead of what was processed, and a sequence number stands for the content
packet passed under that position. -/
structure Stamped (view : Outbound) : Prop where
  acked : view.lastAck ≤ view.lastProcessed
  sorted : Sorted view.outPacketBuffer
  acks : ∀ packet, Sent view packet → ∀ ack, ackOf packet = some ack → ack ≤ view.lastProcessed
  sequence : ¬ view.state.Halted → view.sequence = view.passed.length % uintModulus
  content : view.passed.length ≤ uintModulus → ∀ packet, Sent view packet →
    ∀ seq, seqOf packet = some seq →
      ∃ original, view.passed[seq]? = some original ∧ SameContent packet original

theorem stamped_start (channelId : Nat) : Stamped (outbound (initToIdentity channelId)) where
  acked := Nat.le_refl _
  sorted := ascending_nil
  acks packet sent := by
    rcases sent with sent | ⟨node, member, _⟩
    · cases sent
    · cases member
  sequence _ := rfl
  content _ packet sent := by
    rcases sent with sent | ⟨node, member, _⟩
    · cases sent
    · cases member

/-- Recording a passed packet changes the record alone. -/
theorem outbound_notePassed (channel : THReliableChannel) (packet : THPacket) :
    outbound (channel.notePassed packet) = { outbound channel with
      passed := channel.history.passed ++ (if isContent packet then [packet] else []) } := by
  unfold notePassed
  split <;> simp [outbound]

/-- `sendPacket:` on a channel that ended or failed returns at once. -/
theorem outbound_sendPacket_halted {channel : THReliableChannel} (halted : channel.state.Halted)
    (packet : THPacket) : outbound (channel.sendPacket packet) = { outbound channel with
      passed := channel.history.passed ++ (if isContent packet then [packet] else []) } := by
  rw [sendPacket, if_pos halted, outbound_notePassed]

/-- `sendPacket:` on a channel that is not halted. -/
theorem outbound_sendPacket {channel : THReliableChannel} (alive : ¬ channel.state.Halted)
    (packet : THPacket) : outbound (channel.sendPacket packet) =
      { state := channel.state
        sequence :=
          if isContent packet then (channel.sequence + 1) % uintModulus else channel.sequence
        outPacketBuffer :=
          if (seqOf (channel.outgoing packet)).isSome then
            channel.outPacketBuffer.push (channel.outgoing packet)
          else channel.outPacketBuffer
        lastAck := max channel.lastAck channel.lastProcessed
        lastProcessed := channel.lastProcessed
        passed := channel.history.passed ++ (if isContent packet then [packet] else [])
        numbered :=
          if (seqOf (channel.outgoing packet)).isSome then
            channel.history.numbered ++ [channel.outgoing packet]
          else channel.history.numbered
        transmitted :=
          if channel.state = .opened then
            channel.history.transmitted ++ [channel.outgoing packet]
          else channel.history.transmitted } := by
  have noted := outbound_notePassed channel packet
  have same : (channel.notePassed packet).outgoing packet = channel.outgoing packet := by
    unfold notePassed
    split <;> rfl
  unfold sendPacket
  rw [if_neg alive]
  generalize channel.notePassed packet = ready at noted same
  simp only [outbound, Outbound.mk.injEq] at noted
  obtain ⟨state, sequence, buffer, acked, processed, passed, numbered, transmitted⟩ := noted
  simp only [outbound, sendStamped, same, seqOf, Option.isSome_map, state, sequence, buffer, acked,
    processed, passed, numbered, transmitted]

/-- After a send every packet in sight is an earlier one or the one just stamped. -/
theorem sent_sendStamped {channel : THReliableChannel} {packet sent : THPacket}
    (sorted : Sorted channel.outPacketBuffer)
    (seen : Sent (outbound (channel.sendStamped packet)) sent) :
    Sent (outbound channel) sent ∨ sent = channel.outgoing packet := by
  simp only [Sent, outbound, sendStamped] at seen
  rcases seen with transmitted | ⟨node, member, rfl⟩
  · split at transmitted
    · rcases List.mem_append.mp transmitted with old | new
      · exact Or.inl (Or.inl old)
      · exact Or.inr (List.mem_singleton.mp new)
    · exact Or.inl (Or.inl transmitted)
  · split at member
    · rcases (mem_push sorted _ node).mp member with old | ⟨rfl, _⟩
      · exact Or.inl (Or.inr ⟨node, old, rfl⟩)
      · exact Or.inr rfl
    · exact Or.inl (Or.inr ⟨node, member, rfl⟩)

theorem passed_kept {passed : List THPacket} {seq : Nat} {original : THPacket}
    (found : passed[seq]? = some original) (more : List THPacket) :
    (passed ++ more)[seq]? = some original := by
  have inside := (List.getElem?_eq_some_iff.mp found).1
  rw [List.getElem?_append_left inside]
  exact found

theorem stamped_passed {view : Outbound} (stamped : Stamped view) (more : List THPacket)
    (halted : view.state.Halted) : Stamped { view with passed := view.passed ++ more } where
  acked := stamped.acked
  sorted := stamped.sorted
  acks := stamped.acks
  sequence alive := absurd halted alive
  content room packet sent seq numbered := by
    have fewer : view.passed.length ≤ uintModulus := by
      simp only [List.length_append] at room
      omega
    obtain ⟨original, found, same⟩ := stamped.content fewer packet sent seq numbered
    exact ⟨original, passed_kept found more, same⟩

/-- A channel that has recorded the packet it is about to number. -/
theorem stamped_sendStamped {channel : THReliableChannel} {packet : THPacket}
    (before : List THPacket)
    (stamped : Stamped { outbound channel with passed := before })
    (alive : ¬ channel.state.Halted)
    (noted : channel.history.passed = before ++ (if isContent packet then [packet] else [])) :
    Stamped (outbound (channel.sendStamped packet)) := by
  have acked : channel.lastAck ≤ channel.lastProcessed := stamped.acked
  have sorted : Sorted channel.outPacketBuffer := stamped.sorted
  have current : channel.sequence = before.length % uintModulus := stamped.sequence alive
  refine ⟨?_, ?_, ?_, ?_, ?_⟩
  · simp only [outbound, sendStamped]
    omega
  · simp only [outbound, sendStamped]
    split
    · exact push_sorted sorted _
    · exact sorted
  · intro other sent ack acknowledged
    rcases sent_sendStamped sorted sent with old | rfl
    · exact stamped.acks other old ack acknowledged
    · have bound := outgoing_ack acked acknowledged
      exact bound
  · intro _
    simp only [outbound, sendStamped, noted]
    split
    · rw [current]
      simp
    · simp [current]
  · intro room other sent seq numbered
    have room : (before ++ (if isContent packet then [packet] else [])).length ≤ uintModulus := by
      rw [← noted]
      exact room
    have passed : (outbound (channel.sendStamped packet)).passed =
        before ++ (if isContent packet then [packet] else []) := noted
    rw [passed]
    rcases sent_sendStamped sorted sent with old | rfl
    · have fewer : before.length ≤ uintModulus := by
        simp only [List.length_append] at room
        omega
      obtain ⟨original, found, same⟩ := stamped.content fewer other old seq numbered
      exact ⟨original, passed_kept found _, same⟩
    · obtain ⟨content, same⟩ := outgoing_seq numbered
      simp only [content, ↓reduceIte, List.length_append, List.length_singleton] at room ⊢
      rw [current, Nat.mod_mod, Nat.mod_eq_of_lt (by omega)] at same
      subst same
      exact ⟨packet, by simp, outgoing_content channel packet⟩

theorem stamped_sendPacket (channel : THReliableChannel) (packet : THPacket)
    (stamped : Stamped (outbound channel)) : Stamped (outbound (channel.sendPacket packet)) := by
  have noted := outbound_notePassed channel packet
  unfold sendPacket
  split
  · rename_i halted
    rw [noted]
    exact stamped_passed stamped _ halted
  · rename_i alive
    have state : (channel.notePassed packet).state = channel.state := congrArg Outbound.state noted
    refine stamped_sendStamped channel.history.passed ?_ (by rw [state]; exact alive)
      (congrArg Outbound.passed noted)
    rw [noted]
    exact stamped

/-- Resending changes packets only by taking their `miss` off. -/
theorem sent_resend {channel : THReliableChannel} {miss : Json} {sent : THPacket}
    (seen : Sent (outbound (channel.resendMissingPackets miss)) sent) :
    ∃ original, Sent (outbound channel) original ∧
      (sent = original ∨ sent = withoutMiss original) := by
  simp only [Sent, outbound, resendMissingPackets] at seen
  rcases seen with transmitted | ⟨node, member, rfl⟩
  · have source : sent ∈ channel.history.transmitted ∨
        sent ∈ (channel.outPacketBuffer.packetsForMiss miss).map withoutMiss := by
      split at transmitted
      · exact List.mem_append.mp transmitted
      · exact Or.inl transmitted
    rcases source with old | resent
    · exact ⟨sent, Or.inl old, Or.inl rfl⟩
    · obtain ⟨original, missed, rfl⟩ := List.mem_map.mp resent
      obtain ⟨node, member, rfl⟩ := List.mem_map.mp missed
      exact ⟨node.packet, Or.inr ⟨node, (List.mem_filter.mp member).1, rfl⟩, Or.inr rfl⟩
  · obtain ⟨old, inside, rfl⟩ := List.mem_map.mp member
    refine ⟨old.packet, Or.inr ⟨old, inside, rfl⟩, ?_⟩
    split
    · exact Or.inr rfl
    · exact Or.inl rfl

theorem stamped_resend (channel : THReliableChannel) (miss : Json)
    (stamped : Stamped (outbound channel)) :
    Stamped (outbound (channel.resendMissingPackets miss)) := by
  refine ⟨stamped.acked, mutateMissed_sorted stamped.sorted miss withoutMiss, ?_,
    stamped.sequence, ?_⟩
  · intro packet sent ack acknowledged
    obtain ⟨original, seen, rfl | rfl⟩ := sent_resend sent
    · exact stamped.acks packet seen ack acknowledged
    · rw [ackOf_withoutMiss] at acknowledged
      exact stamped.acks original seen ack acknowledged
  · intro room packet sent seq numbered
    obtain ⟨old, seen, rfl | rfl⟩ := sent_resend sent
    · exact stamped.content room packet seen seq numbered
    · rw [seqOf_withoutMiss] at numbered
      obtain ⟨original, found, same⟩ := stamped.content room old seen seq numbered
      exact ⟨original, found, sameContent_trans (withoutMiss_content old) same⟩

theorem stamped_outward : Outward Stamped where
  sends channel packet := stamped_sendPacket channel packet
  halts view state halted stamped :=
    ⟨stamped.acked, stamped.sorted, stamped.acks, fun alive => absurd halted alive, stamped.content⟩
  resends channel miss := stamped_resend channel miss
  proceeds view seq above stamped :=
    ⟨Nat.le_trans stamped.acked above, stamped.sorted,
      fun packet sent ack acknowledged =>
        Nat.le_trans (stamped.acks packet sent ack acknowledged) above,
      stamped.sequence, stamped.content⟩
  flushes channel stamped := by
    have seen : ∀ packet, Sent (outbound channel.flushOut) packet →
        Sent (outbound channel) packet := by
      rintro packet (transmitted | buffered)
      · rcases List.mem_append.mp transmitted with old | flushed
        · exact Or.inl old
        · obtain ⟨node, member, rfl⟩ := List.mem_map.mp flushed
          exact Or.inr ⟨node, member, rfl⟩
      · exact Or.inr buffered
    exact ⟨stamped.acked, stamped.sorted, fun packet sent => stamped.acks packet (seen packet sent),
      stamped.sequence, fun room packet sent => stamped.content room packet (seen packet sent)⟩

/-- An acknowledgement only takes packets out. -/
theorem stamped_clear {view : Outbound} (stamped : Stamped view) (ack : Nat) :
    Stamped { view with outPacketBuffer := view.outPacketBuffer.clearThrough ack } := by
  have seen : ∀ packet,
      Sent { view with outPacketBuffer := view.outPacketBuffer.clearThrough ack } packet →
        Sent view packet := by
    rintro packet (transmitted | ⟨node, member, same⟩)
    · exact Or.inl transmitted
    · exact Or.inr ⟨node, ((mem_clearThrough stamped.sorted ack node).mp member).1, same⟩
  exact ⟨stamped.acked, clearThrough_sorted stamped.sorted ack,
    fun packet sent => stamped.acks packet (seen packet sent), stamped.sequence,
    fun room packet sent => stamped.content room packet (seen packet sent)⟩

/-- The acknowledgement stage, for a property that clearing up to it keeps. -/
theorem outward_beforeAdmission {property : Outbound → Prop} (outward : Outward property)
    (channel : THReliableChannel) (delegate : Delegate) (packet : THPacket)
    (holds : property (outbound channel))
    (clears : ∀ view ack, ackOf packet = some ack → property view →
      property { view with outPacketBuffer := view.outPacketBuffer.clearThrough ack }) :
    property (outbound (channel.beforeAdmission delegate packet)) := by
  have missed := outward_handleMiss outward channel delegate packet holds
  unfold beforeAdmission handleAck
  split
  · exact missed
  · rename_i ack found
    exact clears (outbound _) ack found missed

/-- A change of state from outside never wakes an ended or errored channel. -/
def NoRevival (channel : THReliableChannel) : Event → Prop
  | .setState _ _ => ¬ channel.state.Halted
  | _ => True

theorem stamped_step (channel : THReliableChannel) (event : Event)
    (ordered : InOrder (inbound channel)) (allowed : NoRevival channel event)
    (stamped : Stamped (outbound channel)) : Stamped (outbound (step channel event)) := by
  refine outward_step stamped_outward channel event ordered stamped ?_ ?_
  · intro delegate packet _
    exact outward_beforeAdmission stamped_outward channel delegate packet stamped
      fun view ack _ kept => stamped_clear kept ack
  · rintro delegate state rfl
    exact ⟨stamped.acked, stamped.sorted, stamped.acks, fun _ => stamped.sequence allowed,
      stamped.content⟩

/-- What was passed and transmitted before stays on record. -/
structure Records (passed transmitted : List THPacket) (view : Outbound) : Prop where
  passed : passed <+: view.passed
  transmitted : transmitted <+: view.transmitted

theorem prefix_if {kept extended more : List THPacket} (test : Prop) [Decidable test]
    (leading : kept <+: extended) : kept <+: if test then extended ++ more else extended := by
  split
  · exact leading.trans (List.prefix_append _ _)
  · exact leading

theorem records_outward (passed transmitted : List THPacket) :
    Outward (Records passed transmitted) where
  sends channel packet records := by
    have noted := outbound_notePassed channel packet
    have recorded : Records passed transmitted (outbound (channel.notePassed packet)) := by
      rw [noted]
      exact ⟨records.passed.trans (List.prefix_append _ _), records.transmitted⟩
    unfold sendPacket
    split
    · exact recorded
    · exact ⟨recorded.passed, prefix_if _ recorded.transmitted⟩
  halts _ _ _ records := ⟨records.passed, records.transmitted⟩
  resends _ _ records := ⟨records.passed, prefix_if _ records.transmitted⟩
  proceeds _ _ _ records := ⟨records.passed, records.transmitted⟩
  flushes _ records :=
    ⟨records.passed, records.transmitted.trans (List.prefix_append _ _)⟩

theorem records_step (channel : THReliableChannel) (event : Event)
    (ordered : InOrder (inbound channel)) :
    Records channel.history.passed channel.history.transmitted (outbound (step channel event)) := by
  have outward := records_outward channel.history.passed channel.history.transmitted
  have start : Records channel.history.passed channel.history.transmitted (outbound channel) :=
    ⟨List.prefix_rfl, List.prefix_rfl⟩
  refine outward_step outward channel event ordered start ?_ ?_
  · intro delegate packet _
    exact outward_beforeAdmission outward channel delegate packet start
      fun view ack _ kept => ⟨kept.passed, kept.transmitted⟩
  · intro delegate state _
    exact ⟨start.passed, start.transmitted⟩

/-- Every packet that went out with a number below the bound may be gone; each
of the others is still in the buffer. -/
structure Retains (bound : Nat) (view : Outbound) : Prop where
  sorted : Sorted view.outPacketBuffer
  kept : ∀ packet ∈ view.numbered, ∀ seq, seqOf packet = some seq →
    seq ∈ view.outPacketBuffer.seqs ∨ seq < bound

theorem retains_sendPacket {bound : Nat} (channel : THReliableChannel) (packet : THPacket)
    (retains : Retains bound (outbound channel)) :
    Retains bound (outbound (channel.sendPacket packet)) := by
  have noted : Retains bound (outbound (channel.notePassed packet)) := by
    rw [outbound_notePassed]
    exact ⟨retains.sorted, retains.kept⟩
  unfold sendPacket
  split
  · exact noted
  · generalize channel.notePassed packet = ready at noted
    have sorted : Sorted ready.outPacketBuffer := noted.sorted
    by_cases hasSeq : ((ready.outgoing packet).objectForKey "seq").isSome
    · refine ⟨?_, ?_⟩
      · simp only [outbound, sendStamped, hasSeq, ↓reduceIte]
        exact push_sorted sorted _
      · intro other member seq numbered
        simp only [outbound, sendStamped, hasSeq, ↓reduceIte] at member ⊢
        rw [seqs_push sorted]
        rcases List.mem_append.mp member with old | new
        · rcases noted.kept other old seq numbered with held | below
          · exact Or.inl (Or.inl held)
          · exact Or.inr below
        · rw [List.mem_singleton.mp new] at numbered
          rw [nodeWithPacket_seq numbered]
          exact Or.inl (Or.inr rfl)
    · refine ⟨?_, ?_⟩ <;> simp only [outbound, sendStamped, hasSeq, Bool.false_eq_true, ↓reduceIte]
      · exact sorted
      · exact noted.kept

theorem retains_outward (bound : Nat) : Outward (Retains bound) where
  sends := retains_sendPacket
  halts _ _ _ retains := ⟨retains.sorted, retains.kept⟩
  resends channel miss retains := by
    refine ⟨mutateMissed_sorted retains.sorted miss withoutMiss, ?_⟩
    intro packet member seq numbered
    simp only [outbound, resendMissingPackets, seqs_mutateMissed]
    exact retains.kept packet member seq numbered
  proceeds _ _ _ retains := ⟨retains.sorted, retains.kept⟩
  flushes _ retains := ⟨retains.sorted, retains.kept⟩

theorem retains_mono {lower higher : Nat} (below : lower ≤ higher) {view : Outbound}
    (retains : Retains lower view) : Retains higher view := by
  refine ⟨retains.sorted, fun packet member seq numbered => ?_⟩
  rcases retains.kept packet member seq numbered with held | gone
  · exact Or.inl held
  · exact Or.inr (Nat.lt_of_lt_of_le gone below)

/-- Clearing is harmless when all it takes out lies below the bound. -/
theorem retains_clear {bound ack : Nat} {view : Outbound} (retains : Retains bound view)
    (covered : ∀ seq ∈ view.outPacketBuffer.seqs, seq ≤ ack → seq < bound) :
    Retains bound { view with outPacketBuffer := view.outPacketBuffer.clearThrough ack } := by
  refine ⟨clearThrough_sorted retains.sorted ack, fun packet member seq numbered => ?_⟩
  rcases retains.kept packet member seq numbered with held | gone
  · rcases Nat.lt_or_ge ack seq with above | low
    · exact Or.inl ((seqs_clearThrough retains.sorted ack seq).mpr ⟨held, above⟩)
    · exact Or.inr (covered seq held low)
  · exact Or.inr gone

end Telehash.ReliableOutbound
