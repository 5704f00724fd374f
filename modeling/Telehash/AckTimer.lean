import Telehash.ReliableSteps

/-!
The block `checkAckPing:` leaves behind. A run is marked with the numbers it
processes and the packets it hands to `toIdentity`, in their order; a number is
covered by a packet sent after it that acknowledges it or a later one.
-/

namespace Telehash.AckTimer
open Foundation Packet PacketBuffer Channel ReliableChannel ReliableViews
open ReliableInbound ReliableOutbound ReliableSteps THReliableChannel Runs

inductive Mark where
  | processed (seq : Nat)
  | sent (packet : THPacket)

def processedIn : Primitive → List Mark
  | .process packet => ((seqOf packet).map .processed).toList
  | _ => []

def mark (marks : List Mark) (channel : THReliableChannel) (primitive : Primitive) : List Mark :=
  marks ++ (handedOn channel (apply channel primitive)).map .sent ++ processedIn primitive

def marked (channelId : Nat) (events : List Event) : Noted THReliableChannel (List Mark) :=
  run (annotate mark apply) ⟨initToIdentity channelId, []⟩
    (record (initToIdentity channelId) events)

/-- A packet sent after the number was processed acknowledges it. -/
def Covered (marks : List Mark) (seq : Nat) : Prop :=
  ∃ before after packet ack, marks = before ++ after ∧ .processed seq ∈ before ∧
    .sent packet ∈ after ∧ ackOf packet = some ack ∧ seq ≤ ack

def AllCovered (marks : List Mark) : Prop := ∀ seq, .processed seq ∈ marks → Covered marks seq

theorem covered_append {marks : List Mark} {seq : Nat} (covered : Covered marks seq)
    (more : List Mark) : Covered (marks ++ more) seq := by
  obtain ⟨before, after, packet, ack, rfl, processed, sent, stamped, reaches⟩ := covered
  exact ⟨before, after ++ more, packet, ack, List.append_assoc _ _ _, processed,
    List.mem_append_left _ sent, stamped, reaches⟩

theorem covered_sent {marks more : List Mark} {seq ack : Nat} {packet : THPacket}
    (processed : .processed seq ∈ marks) (sent : .sent packet ∈ more)
    (stamped : ackOf packet = some ack) (reaches : seq ≤ ack) : Covered (marks ++ more) seq :=
  ⟨marks, more, packet, ack, rfl, processed, sent, stamped, reaches⟩

/-- The number was the last thing to happen, and the first with its number. -/
theorem uncovered_last {marks : List Mark} {seq : Nat} (fresh : .processed seq ∉ marks) :
    ¬ Covered (marks ++ [.processed seq]) seq := by
  rintro ⟨before, after, packet, ack, split, processed, sent, _, _⟩
  cases List.eq_nil_or_concat after with
  | inl none =>
      rw [none] at sent
      cases sent
  | inr some =>
      obtain ⟨inner, last, rfl⟩ := some
      rw [List.concat_eq_append, ← List.append_assoc] at split
      have same := List.append_inj_left' split rfl
      apply fresh
      rw [same]
      exact List.mem_append_left _ processed

/-- What is sent is sent while the channel is open, or before it processed anything. -/
def SentOpen (channel : THReliableChannel) : Primitive → Prop
  | .send _ => channel.state = .opened ∨ channel.state.Halted ∨ channel.history.delivered = []
  | _ => True

/-! ## The marks of a step -/

theorem mark_quiet {marks : List Mark} {channel : THReliableChannel} {primitive : Primitive}
    (same : (apply channel primitive).history.transmitted = channel.history.transmitted)
    (silent : processedIn primitive = []) : mark marks channel primitive = marks := by
  simp [mark, handedOn, same, silent]

theorem mark_handed {marks : List Mark} {channel : THReliableChannel} {primitive : Primitive}
    {packets : List THPacket}
    (handed : (apply channel primitive).history.transmitted =
      channel.history.transmitted ++ packets)
    (silent : processedIn primitive = []) :
    mark marks channel primitive = marks ++ packets.map .sent := by
  simp [mark, handedOn, handed, silent]

theorem outgoing_ackObject {channel : THReliableChannel} {packet : THPacket}
    (json : packet.json.isSome) (behind : channel.lastAck ≤ channel.lastProcessed)
    (small : channel.lastProcessed < uintModulus) :
    ackOf (channel.outgoing packet) = some channel.lastProcessed := by
  have addressed : (channel.stampId (channel.stampMiss (channel.stampSeq packet))).json.isSome := by
    simpa using json
  simp only [ackOf, outgoing, stampAck, behind, ↓reduceIte]
  rw [objectForKey_setObject_same _ _ _ addressed, Option.map_some,
    unsignedIntegerValue_natural _ small]

/-! ## The invariant -/

/-- What an uncovered number leaves behind: an acknowledgement that is overdue,
or nothing at all when it is number 0. -/
structure Tracked (noted : Noted THReliableChannel (List Mark)) : Prop where
  acked : noted.state.lastAck ≤ noted.state.lastProcessed
  small : noted.state.lastProcessed < uintModulus
  sorted : Sorted noted.state.outPacketBuffer
  acks : ∀ node ∈ noted.state.outPacketBuffer.chain, (ackOf node.packet).isSome
  unread : noted.state.history.delivered = [] →
    noted.state.lastProcessed = 0 ∧ ∀ seq, .processed seq ∉ noted.note
  numbers : ∀ seq, .processed seq ∈ noted.note → seq ≤ noted.state.lastProcessed
  fresh : (∀ seq, .processed seq ∈ noted.note → seq < noted.state.nextExpectedSequence) ∨
    noted.state.lastProcessed + 1 = uintModulus
  covered : ∀ seq, .processed seq ∈ noted.note →
    Covered noted.note seq ∨ noted.state.lastAck < seq ∨
      (seq = 0 ∧ noted.state.lastAck = 0 ∧
        (0 < noted.state.lastProcessed ∨ noted.note.getLast? = some (.processed 0)))
  last : noted.note.getLast? = some (.processed 0) →
    noted.state.lastProcessed = 0 ∧ ¬ Covered noted.note 0

theorem tracked_start (channelId : Nat) : Tracked ⟨initToIdentity channelId, []⟩ where
  acked := Nat.le_refl _
  small := Nat.two_pow_pos 64
  sorted := OrderedChain.ascending_nil
  acks := List.forall_mem_nil _
  unread _ := ⟨rfl, fun _ => List.not_mem_nil⟩
  numbers _ member := by cases member
  fresh := Or.inl fun _ member => by cases member
  covered _ member := by cases member
  last none := by cases none

theorem last_sent {marks : List Mark} {packets : List THPacket} {seq : Nat}
    (last : (marks ++ packets.map Mark.sent).getLast? = some (.processed seq)) : packets = [] := by
  rcases List.eq_nil_or_concat packets with none | ⟨earlier, final, rfl⟩
  · exact none
  · simp at last

/-- Steps that at most hand on packets with acknowledgements. -/
theorem tracked_hands {noted : Noted THReliableChannel (List Mark)} (tracked : Tracked noted)
    {after : THReliableChannel} {packets : List THPacket}
    (acked : after.lastAck = noted.state.lastAck)
    (processed : after.lastProcessed = noted.state.lastProcessed)
    (next : after.nextExpectedSequence = noted.state.nextExpectedSequence)
    (older : after.history.delivered = [] → noted.state.history.delivered = [])
    (sorted : Sorted after.outPacketBuffer)
    (acks : ∀ node ∈ after.outPacketBuffer.chain, (ackOf node.packet).isSome)
    (answered : ∀ packet ∈ packets, (ackOf packet).isSome) :
    Tracked ⟨after, noted.note ++ packets.map .sent⟩ := by
  have old : ∀ seq, .processed seq ∈ noted.note ++ packets.map .sent →
      .processed seq ∈ noted.note := by
    intro seq member
    simpa using member
  refine ⟨by simp only [acked, processed]; exact tracked.acked,
    by simp only [processed]; exact tracked.small, sorted, acks, ?_, ?_, ?_, ?_, ?_⟩
  · intro none
    obtain ⟨start, unmarked⟩ := tracked.unread (older none)
    exact ⟨processed.trans start, fun seq member => unmarked seq (old seq member)⟩
  · intro seq member
    simp only [processed]
    exact tracked.numbers seq (old seq member)
  · simp only [processed, next]
    exact tracked.fresh.imp_left fun below seq member => below seq (old seq member)
  · intro seq member
    simp only [acked, processed]
    rcases tracked.covered seq (old seq member) with covered | overdue | ⟨rfl, zero, waits⟩
    · exact Or.inl (covered_append covered _)
    · exact Or.inr (Or.inl overdue)
    · cases packets with
      | nil =>
          rw [List.map_nil, List.append_nil]
          exact Or.inr (Or.inr ⟨rfl, zero, waits⟩)
      | cons packet rest =>
          -- whatever it acknowledges is at least number 0
          obtain ⟨ack, stamped⟩ := Option.isSome_iff_exists.mp
            (answered packet List.mem_cons_self)
          exact Or.inl (covered_sent (old 0 member) (by simp) stamped (Nat.zero_le _))
  · intro last
    have none := last_sent last
    subst none
    rw [List.map_nil, List.append_nil] at last ⊢
    simp only [processed]
    exact tracked.last last

/-- Steps that hand on nothing and process nothing. -/
theorem tracked_silent {noted : Noted THReliableChannel (List Mark)} (tracked : Tracked noted)
    {primitive : Primitive} (silent : processedIn primitive = [])
    (transmitted : (apply noted.state primitive).history.transmitted =
      noted.state.history.transmitted)
    (acked : (apply noted.state primitive).lastAck = noted.state.lastAck)
    (processed : (apply noted.state primitive).lastProcessed = noted.state.lastProcessed)
    (next : (apply noted.state primitive).nextExpectedSequence =
      noted.state.nextExpectedSequence)
    (older : (apply noted.state primitive).history.delivered = [] →
      noted.state.history.delivered = [])
    (sorted : Sorted (apply noted.state primitive).outPacketBuffer)
    (acks : ∀ node ∈ (apply noted.state primitive).outPacketBuffer.chain,
      (ackOf node.packet).isSome) :
    Tracked (annotate mark apply noted primitive) := by
  have quiet : mark noted.note noted.state primitive = noted.note ++ [].map .sent :=
    (mark_quiet transmitted silent).trans (by simp)
  simp only [annotate, quiet]
  exact tracked_hands tracked acked processed next older sorted acks (List.forall_mem_nil _)

/-- What a live channel files has its acknowledgement as well. -/
theorem tracked_filed {noted : Noted THReliableChannel (List Mark)} (tracked : Tracked noted)
    {packet : THPacket} (json : packet.json.isSome) (alive : ¬ noted.state.state.Halted) :
    Sorted (noted.state.sendPacket packet).outPacketBuffer ∧
      ∀ node ∈ (noted.state.sendPacket packet).outPacketBuffer.chain,
        (ackOf node.packet).isSome := by
  have stamped : ackOf (noted.state.outgoing packet) = some noted.state.lastProcessed :=
    outgoing_ackObject json tracked.acked tracked.small
  have buffer := congrArg Outbound.outPacketBuffer (outbound_sendPacket alive packet)
  rw [show (noted.state.sendPacket packet).outPacketBuffer = _ from buffer]
  dsimp only
  split
  · refine ⟨push_sorted tracked.sorted _, fun node member => ?_⟩
    rcases (mem_push tracked.sorted _ node).mp member with old | ⟨rfl, _⟩
    · exact tracked.acks node old
    · simp [nodeWithPacket, stamped]
  · exact ⟨tracked.sorted, tracked.acks⟩

/-- A packet handed on by an open channel covers all that was processed. -/
theorem tracked_sendOpen {noted : Noted THReliableChannel (List Mark)} (tracked : Tracked noted)
    {packet : THPacket} (json : packet.json.isSome) (open_ : noted.state.state = .opened) :
    Tracked (annotate mark apply noted (.send packet)) := by
  obtain ⟨channel, marks⟩ := noted
  have open_ : channel.state = .opened := open_
  have alive : ¬ channel.state.Halted := by
    rw [open_]
    decide
  have incoming := inbound_sendPacket channel packet
  have processed : (channel.sendPacket packet).lastProcessed = channel.lastProcessed :=
    congrArg Inbound.lastProcessed incoming
  have next : (channel.sendPacket packet).nextExpectedSequence = channel.nextExpectedSequence :=
    congrArg Inbound.nextExpectedSequence incoming
  have delivered : (channel.sendPacket packet).history.delivered = channel.history.delivered :=
    congrArg Inbound.delivered incoming
  have behind : channel.lastAck ≤ channel.lastProcessed := tracked.acked
  have stamped : ackOf (channel.outgoing packet) = some channel.lastProcessed :=
    outgoing_ackObject json behind tracked.small
  have view := outbound_sendPacket alive packet
  have transmitted : (apply channel (.send packet)).history.transmitted = _ :=
    congrArg Outbound.transmitted view
  have reached : (channel.sendPacket packet).lastAck = channel.lastProcessed := by
    rw [show (channel.sendPacket packet).lastAck = _ from congrArg Outbound.lastAck view]
    exact Nat.max_eq_right behind
  obtain ⟨sorted, acks⟩ := tracked_filed tracked json alive
  rw [if_pos open_] at transmitted
  simp only [annotate, mark_handed transmitted rfl, apply]
  refine ⟨?_, by rw [processed]; exact tracked.small, sorted, acks, ?_, ?_, ?_, ?_, ?_⟩
  · rw [reached, processed]
  · intro none
    obtain ⟨start, unmarked⟩ := tracked.unread (delivered ▸ none)
    exact ⟨processed.trans start, fun seq member => unmarked seq (by simpa using member)⟩
  · intro seq member
    rw [processed]
    exact tracked.numbers seq (by simpa using member)
  · rw [processed, next]
    exact tracked.fresh.imp_left fun below seq member => below seq (by simpa using member)
  · intro seq member
    have old : .processed seq ∈ marks := by simpa using member
    exact Or.inl (covered_sent old (by simp) stamped (tracked.numbers seq old))
  · intro last
    have none := last_sent last
    cases none

/-- A channel that is not open hands on nothing; both counters still are 0 when
it has processed nothing. -/
theorem tracked_sendClosed {noted : Noted THReliableChannel (List Mark)} (tracked : Tracked noted)
    {packet : THPacket} (json : packet.json.isSome) (closed : noted.state.state ≠ .opened)
    (unread : noted.state.state.Halted ∨ noted.state.history.delivered = []) :
    Tracked (annotate mark apply noted (.send packet)) := by
  have incoming := inbound_sendPacket noted.state packet
  have processed : (apply noted.state (.send packet)).lastProcessed = noted.state.lastProcessed :=
    congrArg Inbound.lastProcessed incoming
  have next : (apply noted.state (.send packet)).nextExpectedSequence =
      noted.state.nextExpectedSequence := congrArg Inbound.nextExpectedSequence incoming
  have delivered : (apply noted.state (.send packet)).history.delivered =
      noted.state.history.delivered := congrArg Inbound.delivered incoming
  have older : (apply noted.state (.send packet)).history.delivered = [] →
      noted.state.history.delivered = [] := fun none => delivered.symm.trans none
  by_cases halted : noted.state.state.Halted
  · have view := outbound_sendPacket_halted halted packet
    have buffer : (apply noted.state (.send packet)).outPacketBuffer =
        noted.state.outPacketBuffer := congrArg Outbound.outPacketBuffer view
    refine tracked_silent tracked rfl (congrArg Outbound.transmitted view)
      (congrArg Outbound.lastAck view) processed next older ?_ ?_
    · rw [buffer]
      exact tracked.sorted
    · rw [buffer]
      exact tracked.acks
  · have view := outbound_sendPacket halted packet
    have transmitted := congrArg Outbound.transmitted view
    have acked : (apply noted.state (.send packet)).lastAck = _ := congrArg Outbound.lastAck view
    rw [if_neg closed] at transmitted
    obtain ⟨sorted, acks⟩ := tracked_filed tracked json halted
    refine tracked_silent tracked rfl transmitted ?_ processed next older sorted acks
    have start : noted.state.lastProcessed = 0 :=
      (tracked.unread (unread.resolve_left halted)).1
    rw [acked, start]
    exact Nat.max_eq_left (Nat.zero_le _)

theorem tracked_send {noted : Noted THReliableChannel (List Mark)} (tracked : Tracked noted)
    {packet : THPacket} (json : packet.json.isSome)
    (sentOpen : SentOpen noted.state (.send packet)) :
    Tracked (annotate mark apply noted (.send packet)) := by
  by_cases open_ : noted.state.state = .opened
  · exact tracked_sendOpen tracked json open_
  · exact tracked_sendClosed tracked json open_ (sentOpen.resolve_left open_)

/-- A number above 0 is overdue as soon as it is processed; number 0 is not. -/
theorem tracked_process {noted : Noted THReliableChannel (List Mark)} (tracked : Tracked noted)
    {packet : THPacket} (orderly : Orderly noted.state (.process packet)) :
    Tracked (annotate mark apply noted (.process packet)) := by
  obtain ⟨channel, marks⟩ := noted
  obtain ⟨seq, stamped, next, delivered, processed⟩ := orderly
  have next : channel.nextExpectedSequence = seq := next
  have processed : channel.lastProcessed = seq - 1 := processed
  have delivered : channel.history.delivered.length = seq + 1 := delivered
  have behind : channel.lastAck ≤ channel.lastProcessed := tracked.acked
  have small := seqOf_lt stamped
  have many : 1 < uintModulus := by decide
  have unseen : ∀ old, .processed old ∈ marks → old < seq := by
    intro old member
    -- behind number 2^64 - 1 nothing more is processed
    rcases tracked.fresh with below | full
    · exact next ▸ below old member
    · have full : channel.lastProcessed + 1 = uintModulus := full
      omega
  have absent : .processed seq ∉ marks := fun member => Nat.lt_irrefl _ (unseen seq member)
  have marked : mark marks channel (.process packet) = marks ++ [.processed seq] := by
    simp [mark, handedOn, apply, noteProcessed, stamped, processedIn]
  simp only [annotate, marked, apply, noteProcessed, stamped]
  refine ⟨by simp only; omega, small, tracked.sorted, tracked.acks, ?_, ?_, ?_, ?_, ?_⟩
  · intro none
    have none : channel.history.delivered = [] := none
    simp [none] at delivered
  · intro old member
    simp only
    rcases List.mem_append.mp member with earlier | new
    · exact Nat.le_of_lt (unseen old earlier)
    · cases List.mem_singleton.mp new
      exact Nat.le_refl _
  · simp only
    rcases Nat.lt_or_ge (seq + 1) uintModulus with room | full
    · rw [Nat.mod_eq_of_lt room]
      refine Or.inl fun old member => ?_
      rcases List.mem_append.mp member with earlier | new
      · exact Nat.lt_succ_of_lt (unseen old earlier)
      · cases List.mem_singleton.mp new
        exact Nat.lt_succ_self _
    · exact Or.inr (by omega)
  · intro old member
    simp only
    rcases List.mem_append.mp member with earlier | new
    · rcases tracked.covered old earlier with covered | overdue | ⟨rfl, zero, _⟩
      · exact Or.inl (covered_append covered _)
      · exact Or.inr (Or.inl overdue)
      · exact Or.inr (Or.inr ⟨rfl, zero, Or.inl (unseen 0 earlier)⟩)
    · cases List.mem_singleton.mp new
      -- number 0 leaves both counters at 0
      rcases Nat.eq_zero_or_pos seq with rfl | positive
      · exact Or.inr (Or.inr ⟨rfl, by omega, Or.inr (by simp)⟩)
      · exact Or.inr (Or.inl (by omega))
  · intro last
    have zero : seq = 0 := by simpa using last
    subst zero
    exact ⟨rfl, uncovered_last absent⟩

theorem tracked_quiet {noted : Noted THReliableChannel (List Mark)} (tracked : Tracked noted)
    {primitive : Primitive}
    (view : outbound (apply noted.state primitive) =
      { outbound noted.state with state := (apply noted.state primitive).state })
    (next : (apply noted.state primitive).nextExpectedSequence =
      noted.state.nextExpectedSequence)
    (older : (apply noted.state primitive).history.delivered = [] →
      noted.state.history.delivered = [])
    (silent : processedIn primitive = []) :
    Tracked (annotate mark apply noted primitive) := by
  have buffer : (apply noted.state primitive).outPacketBuffer = noted.state.outPacketBuffer :=
    congrArg Outbound.outPacketBuffer view
  refine tracked_silent tracked silent (congrArg Outbound.transmitted view)
    (congrArg Outbound.lastAck view) (congrArg Outbound.lastProcessed view) next older ?_ ?_
  · rw [buffer]
    exact tracked.sorted
  · rw [buffer]
    exact tracked.acks

theorem tracked_resend {noted : Noted THReliableChannel (List Mark)} (tracked : Tracked noted)
    (miss : Json) : Tracked (annotate mark apply noted (.resend miss)) := by
  obtain ⟨channel, marks⟩ := noted
  have acks : ∀ node ∈ channel.outPacketBuffer.chain, (ackOf (withoutMiss node.packet)).isSome := by
    intro node member
    rw [ackOf_withoutMiss]
    exact tracked.acks node member
  have held : ∀ node ∈ (channel.outPacketBuffer.mutateMissed miss withoutMiss).chain,
      (ackOf node.packet).isSome := by
    intro node member
    obtain ⟨old, inside, rfl⟩ := List.mem_map.mp member
    split
    · exact acks old inside
    · exact tracked.acks old inside
  by_cases opened_ : channel.state = .opened
  · have handed : (apply channel (.resend miss)).history.transmitted =
        channel.history.transmitted ++
          (channel.outPacketBuffer.packetsForMiss miss).map withoutMiss := by
      simp [apply, resendMissingPackets, opened_]
    simp only [annotate, mark_handed handed rfl]
    refine tracked_hands tracked rfl rfl rfl id (mutateMissed_sorted tracked.sorted _ _) held ?_
    intro packet member
    obtain ⟨original, missed, rfl⟩ := List.mem_map.mp member
    obtain ⟨node, inside, rfl⟩ := List.mem_map.mp missed
    exact acks node (List.mem_filter.mp inside).1
  · have silent : (apply channel (.resend miss)).history.transmitted =
        channel.history.transmitted := by
      simp [apply, resendMissingPackets, opened_]
    exact tracked_silent tracked rfl silent rfl rfl rfl id
      (mutateMissed_sorted tracked.sorted _ _) held

theorem tracked_flush {noted : Noted THReliableChannel (List Mark)} (tracked : Tracked noted) :
    Tracked (annotate mark apply noted .flush) := by
  have handed : (apply noted.state .flush).history.transmitted = noted.state.history.transmitted ++
      noted.state.outPacketBuffer.chain.map THPacketNode.packet := rfl
  simp only [annotate, mark_handed handed rfl]
  refine tracked_hands tracked rfl rfl rfl id tracked.sorted tracked.acks ?_
  intro packet member
  obtain ⟨node, inside, rfl⟩ := List.mem_map.mp member
  exact tracked.acks node inside

theorem tracked_clear {noted : Noted THReliableChannel (List Mark)} (tracked : Tracked noted)
    (ack : Nat) : Tracked (annotate mark apply noted (.clear ack)) := by
  refine tracked_silent tracked rfl rfl rfl rfl rfl id (clearThrough_sorted tracked.sorted ack) ?_
  intro node member
  exact tracked.acks node ((mem_clearThrough tracked.sorted ack node).mp member).1

theorem tracked_apply {noted : Noted THReliableChannel (List Mark)} (tracked : Tracked noted)
    {primitive : Primitive} (orderly : Orderly noted.state primitive)
    (written : ∀ packet, primitive = .send packet → packet.json.isSome)
    (opened_ : SentOpen noted.state primitive) :
    Tracked (annotate mark apply noted primitive) := by
  cases primitive with
  | send packet => exact tracked_send tracked (written packet rfl) opened_
  | process packet => exact tracked_process tracked orderly
  | resend miss => exact tracked_resend tracked miss
  | clear ack => exact tracked_clear tracked ack
  | flush => exact tracked_flush tracked
  | enqueue packet =>
      obtain ⟨_, changed⟩ := enqueue_eq noted.state packet
      have same : apply noted.state (.enqueue packet) = _ := changed
      exact tracked_quiet tracked (by rw [same]; rfl) (by rw [same]) (by rw [same]; exact id) rfl
  | pop packet rest => exact tracked_quiet tracked rfl rfl (by simp [apply, pop]) rfl
  | arrive | become | deregister | see | adopt | receive | look =>
      exact tracked_quiet tracked rfl rfl id rfl

/-! ## The timer -/

/-- What the timer does with a channel in track. -/
theorem covers_iff {noted : Noted THReliableChannel (List Mark)} (tracked : Tracked noted)
    (opened_ : noted.state.state = .opened) :
    AllCovered (run (annotate mark apply) noted (pingSteps noted.state)).note ↔
      noted.note.getLast? ≠ some (.processed 0) := by
  obtain ⟨channel, marks⟩ := noted
  have behind : channel.lastAck ≤ channel.lastProcessed := tracked.acked
  have opened_ : channel.state = .opened := opened_
  unfold pingSteps
  split
  · rename_i overdue
    have overdue : channel.lastAck < channel.lastProcessed := overdue
    have alive : ¬ channel.state.Halted := by
      rw [opened_]
      decide
    have handed : (apply channel (.send .new)).history.transmitted =
        channel.history.transmitted ++ [channel.outgoing .new] := by
      have sent := congrArg Outbound.transmitted (outbound_sendPacket alive .new)
      rw [if_pos opened_] at sent
      exact sent
    have stamped : ackOf (channel.outgoing .new) = some channel.lastProcessed :=
      outgoing_ackObject rfl behind tracked.small
    simp only [run_cons, run_nil, annotate, mark_handed handed rfl]
    refine iff_of_true ?_ ?_
    · intro seq member
      have old : .processed seq ∈ marks := by simpa using member
      exact covered_sent old (by simp) stamped (tracked.numbers seq old)
    · intro last
      have zero : channel.lastProcessed = 0 := (tracked.last last).1
      omega
  · rename_i current
    have current : ¬ channel.lastAck < channel.lastProcessed := current
    rw [run_nil]
    constructor
    · intro all last
      exact (tracked.last last).2 (all 0 (List.mem_of_getLast? last))
    · intro other seq member
      have below : seq ≤ channel.lastProcessed := tracked.numbers seq member
      rcases tracked.covered seq member with covered | overdue | ⟨_, zero, waits⟩
      · exact covered
      · have overdue : channel.lastAck < seq := overdue
        omega
      · have zero : channel.lastAck = 0 := zero
        rcases waits with positive | last
        · have positive : 0 < channel.lastProcessed := positive
          omega
        · exact absurd last other

/-- In every run that sends while the channel is open, whatever the delegate
does: when the timer fires in the Open state, all that was processed is covered
afterwards unless number 0 was processed last and nothing was sent since. -/
theorem timer_acknowledges_iff (channelId : Nat) (events : List Event)
    (written : ∀ packet, .send packet ∈ record (initToIdentity channelId) events →
      packet.json.isSome)
    (open_ : Along apply SentOpen (initToIdentity channelId)
      (record (initToIdentity channelId) events))
    (fires : (run step (initToIdentity channelId) events).state = .opened) :
    AllCovered (marked channelId (events ++ [.ackPing])).note ↔
      (marked channelId events).note.getLast? ≠ some (.processed 0) := by
  have orders := orderly_record _ events (inOrder_start channelId)
  have writes : Along apply
      (fun _ primitive => ∀ packet, primitive = .send packet → packet.json.isSome)
      (initToIdentity channelId) (record (initToIdentity channelId) events) := by
    apply along_everywhere
    rintro _ member _ packet rfl
    exact written packet member
  have along := (along_annotate mark ⟨initToIdentity channelId, []⟩ _).mpr
    ((along_and _ _).mpr ⟨orders, (along_and _ _).mpr ⟨writes, open_⟩⟩)
  have kept : ∀ noted primitive, Orderly noted.state primitive ∧
      (∀ packet, primitive = .send packet → packet.json.isSome) ∧ SentOpen noted.state primitive →
      Tracked noted → Tracked (annotate mark apply noted primitive) :=
    fun _ _ met tracked => tracked_apply tracked met.1 met.2.1 met.2.2
  have tracked : Tracked (marked channelId events) :=
    run_invariant kept _ _ (tracked_start channelId) along
  have reached : (marked channelId events).state = run step (initToIdentity channelId) events :=
    (run_annotate mark _ _).trans (run_record _ _)
  have extended : marked channelId (events ++ [.ackPing]) =
      run (annotate mark apply) (marked channelId events)
        (pingSteps (marked channelId events).state) := by
    unfold marked
    rw [record_append, run_append, run_annotate, run_record]
    simp [record, steps]
  rw [extended]
  exact covers_iff tracked (reached ▸ fires)

def received (seqs : List Nat) : List Event := .setState .none .opened :: seqs.map arrival

theorem timer_acknowledges_second_packet :
    AllCovered (marked 1 (received [0, 1] ++ [.ackPing])).note := by
  have sends : ∀ packet, .send packet ∈ record (initToIdentity 1) (received [0, 1]) → False := by
    intro packet member
    have none : ((record (initToIdentity 1) (received [0, 1])).all fun primitive =>
        match primitive with
        | .send _ => false
        | _ => true) = true := by decide +kernel
    have sent := List.all_eq_true.mp none _ member
    cases sent
  refine (timer_acknowledges_iff 1 (received [0, 1]) ?_ ?_ (by decide +kernel)).mpr ?_
  · exact fun packet member => (sends packet member).elim
  · apply along_everywhere
    intro primitive member channel
    cases primitive <;> first | trivial | exact (sends _ member).elim
  · have last : (marked 1 (received [0, 1])).note = [.processed 0, .processed 1] := by rfl
    rw [last]
    simp

/-- The first packet of a channel is processed, and the timer sends nothing. -/
theorem first_packet_unacknowledged :
    (run step (initToIdentity 1) (received [0])).state = .opened ∧
      .processed 0 ∈ (marked 1 (received [0] ++ [.ackPing])).note ∧
      ¬ AllCovered (marked 1 (received [0] ++ [.ackPing])).note := by
  have marks : (marked 1 (received [0] ++ [.ackPing])).note = [] ++ [.processed 0] := by rfl
  refine ⟨by decide +kernel, by simp [marks], fun all => ?_⟩
  rw [marks] at all
  exact uncovered_last List.not_mem_nil (all 0 (by simp))

end Telehash.AckTimer
