import Telehash.ReliableViews
import Telehash.Runs
import Mathlib.Logic.Relation

/-!
The incoming half of a reliable channel: what the delegate is handed, and when
a packet is left waiting. Delivery is a relation between views of the incoming
half; the invariant is kept by admission and by each delivery, so it holds
after every run of events, whatever the delegate does.
-/

namespace Telehash.ReliableInbound
open Foundation Packet PacketBuffer OrderedChain Channel ReliableChannel ReliableViews Runs
open THReliableChannel

/-- A packet recorded and, when it carries a sequence number not below the last
processed one, buffered. -/
def receive (view : Inbound) (packet : THPacket) : Inbound :=
  { view with
    received := view.received ++ [packet]
    inPacketBuffer := match seqOf packet with
      | none => view.inPacketBuffer
      | some seq =>
          if view.lastProcessed ≤ seq then view.inPacketBuffer.push packet
          else view.inPacketBuffer }

def hand (view : Inbound) (front : THPacketNode) (rest : List THPacketNode) : Inbound :=
  { view with
    inPacketBuffer := ⟨rest⟩
    delivered := view.delivered ++ [front.packet]
    lastProcessed := (seqOf front.packet).getD view.lastProcessed
    nextExpectedSequence :=
      ((seqOf front.packet).map fun seq => (seq + 1) % uintModulus).getD view.nextExpectedSequence }

inductive Delivers : Inbound → Inbound → Prop where
  | hand (view : Inbound) (front : THPacketNode) (rest : List THPacketNode)
      (chain : view.inPacketBuffer.chain = front :: rest)
      (expected : front.seq = view.nextExpectedSequence) : Delivers view (hand view front rest)

/-- The loop has nothing to do: the buffer is empty or its front is not the
expected packet. -/
def Idle (view : Inbound) : Prop :=
  ∀ front rest, view.inPacketBuffer.chain = front :: rest → front.seq ≠ view.nextExpectedSequence

theorem inbound_handToDelegate (channel : THReliableChannel) (delegate : Delegate)
    (front : THPacketNode) (rest : List THPacketNode) :
    inbound (channel.handToDelegate delegate front.packet rest) =
      hand (inbound channel) front rest := by
  have performed := inbound_performAll (channel.pop front.packet rest) delegate
    (delegate.handlePacket front.packet)
  unfold handToDelegate noteProcessed hand
  cases seqOf front.packet with
  | none => exact performed
  | some seq =>
      have buffers := congrArg Inbound.inPacketBuffer performed
      have received := congrArg Inbound.received performed
      have delivered := congrArg Inbound.delivered performed
      simp only [inbound, pop] at buffers received delivered
      simp [inbound, pop, buffers, received, delivered]

theorem ended_setEnded (channel : THReliableChannel) (delegate : Delegate) :
    (channel.setEnded delegate).state = .ended := by
  have start : ({ channel with state := .ended } : THReliableChannel).state = .ended := rfl
  unfold setEnded
  refine List.foldlRecOn (motive := fun reached => reached.state = .ended) _ performEnded start
    fun reached ended call _ => ?_
  cases call with
  | sendPacket packet =>
      have halted : reached.state.Halted := Or.inl ended
      simp only [performEnded, sendPacket, halted, ↓reduceIte, notePassed]
      split <;> exact ended
  | close => exact ended

theorem close_ended (channel : THReliableChannel) (delegate : Delegate)
    (ended : channel.state = .ended) : channel.close delegate = channel.deregister := by
  simp [close, ended]

theorem deliver_delivers (delegate : Delegate) (nodes : List THPacketNode)
    (channel : THReliableChannel) (held : channel.inPacketBuffer.chain = nodes) :
    Relation.ReflTransGen Delivers (inbound channel) (inbound (deliver delegate nodes channel)) ∧
      ((deliver delegate nodes channel).state = .ended ∨
        Idle (inbound (deliver delegate nodes channel))) := by
  induction nodes generalizing channel with
  | nil =>
      refine ⟨.refl, Or.inr fun front rest chain => ?_⟩
      have empty : [] = front :: rest := held.symm.trans chain
      cases empty
  | cons front rest ih =>
      unfold deliver
      by_cases expected : front.seq = channel.nextExpectedSequence
      · simp only [expected, ne_eq, not_true_eq_false, ↓reduceIte]
        let handed := channel.lookForMissing.handToDelegate delegate front.packet rest
        have view : inbound handed = hand (inbound channel) front rest :=
          inbound_handToDelegate channel.lookForMissing delegate front rest
        have first : Delivers (inbound channel) (inbound handed) := by
          rw [view]
          exact .hand _ front rest held expected
        split
        · rw [close_ended _ _ (ended_setEnded _ _)]
          refine ⟨.single ?_, Or.inl (ended_setEnded _ _)⟩
          simpa using first
        · have chain : handed.inPacketBuffer.chain = rest := by
            rw [show handed.inPacketBuffer = ⟨rest⟩ from congrArg Inbound.inPacketBuffer view]
          obtain ⟨later, stopped⟩ := ih handed chain
          exact ⟨.head first later, stopped⟩
      · simp only [ne_eq, expected, not_false_eq_true, ↓reduceIte, inbound_outOfOrder]
        refine ⟨.refl, Or.inr fun other later chain => ?_⟩
        have same : front :: rest = other :: later := held.symm.trans chain
        cases same
        exact expected

theorem inbound_admitted (channel : THReliableChannel) (delegate : Delegate)
    (packet : THPacket) :
    inbound (((channel.beforeAdmission delegate packet).noteReceived packet).enqueue packet) =
      receive (inbound channel) packet := by
  rw [← inbound_beforeAdmission channel delegate packet]
  simp only [enqueue, receive]
  cases seqOf packet with
  | none => rfl
  | some seq =>
      by_cases low : (channel.beforeAdmission delegate packet).lastProcessed ≤ seq <;>
        simp [inbound, noteReceived, low]

theorem handlePacket_delivers (channel : THReliableChannel) (delegate : Delegate)
    (packet : THPacket) :
    Relation.ReflTransGen Delivers (receive (inbound channel) packet)
        (inbound (channel.handlePacket delegate packet)) ∧
      ((channel.handlePacket delegate packet).state = .ended ∨
        Idle (inbound (channel.handlePacket delegate packet))) := by
  have delivered := deliver_delivers delegate _
    (((channel.beforeAdmission delegate packet).noteReceived packet).enqueue packet) rfl
  rw [inbound_admitted] at delivered
  exact delivered

theorem received_handlePacket (channel : THReliableChannel) (delegate : Delegate)
    (packet : THPacket) :
    (channel.handlePacket delegate packet).history.received =
      channel.history.received ++ [packet] := by
  have delivers := (handlePacket_delivers channel delegate packet).1
  have kept : ∀ before after, Relation.ReflTransGen Delivers before after →
      after.received = before.received := by
    intro before after path
    induction path with
    | refl => rfl
    | tail _ last ih => cases last with | hand => exact ih
  exact kept _ _ delivers

def firstWith (received : List THPacket) (seq : Nat) : Option THPacket :=
  received.find? fun packet => seqOf packet = some seq

theorem firstWith_seq {received : List THPacket} {seq : Nat} {packet : THPacket}
    (found : firstWith received seq = some packet) : seqOf packet = some seq := by
  simpa using List.find?_some found

theorem firstWith_mem {received : List THPacket} {seq : Nat} {packet : THPacket}
    (found : firstWith received seq = some packet) : packet ∈ received :=
  List.mem_of_find?_eq_some found

theorem firstWith_append {received : List THPacket} {seq : Nat} {packet : THPacket}
    (found : firstWith received seq = some packet) (later : List THPacket) :
    firstWith (received ++ later) seq = some packet := by
  simp only [firstWith] at found ⊢
  rw [List.find?_append, found, Option.some_or]

theorem firstWith_new {received : List THPacket} {seq : Nat} (packet : THPacket)
    (absent : ∀ old ∈ received, seqOf old ≠ some seq) (stamped : seqOf packet = some seq) :
    firstWith (received ++ [packet]) seq = some packet := by
  have none : received.find? (fun old => seqOf old = some seq) = none :=
    List.find?_eq_none.mpr fun old member => by simpa using absent old member
  simp only [firstWith]
  rw [List.find?_append, none]
  simp [stamped]

/-- What holds of the incoming half between any two calls. The packets handed
over so far are the first received ones with the sequence numbers from 0 on;
every later number received waits in the buffer under its first packet. A
second copy of the last one handed over may sit at the front. -/
structure InOrder (view : Inbound) : Prop where
  bounded : view.delivered.length ≤ uintModulus
  next : view.nextExpectedSequence = view.delivered.length % uintModulus
  last : view.lastProcessed = view.delivered.length - 1
  sorted : Sorted view.inPacketBuffer
  buffered : ∀ node ∈ view.inPacketBuffer.chain, seqOf node.packet = some node.seq
  notBelow : ∀ node ∈ view.inPacketBuffer.chain, view.lastProcessed ≤ node.seq
  firsts : ∀ node ∈ view.inPacketBuffer.chain, view.delivered.length ≤ node.seq →
    firstWith view.received node.seq = some node.packet
  held : ∀ packet ∈ view.received, ∀ seq, seqOf packet = some seq →
    view.delivered.length ≤ seq → seq ∈ view.inPacketBuffer.seqs
  delivered : ∀ index (inside : index < view.delivered.length),
    firstWith view.received index = some (view.delivered.get ⟨index, inside⟩)

theorem inOrder_start (channelId : Nat) : InOrder (inbound (initToIdentity channelId)) where
  bounded := Nat.zero_le _
  next := rfl
  last := rfl
  sorted := ascending_nil
  buffered _ member := nomatch member
  notBelow _ member := nomatch member
  firsts _ member := nomatch member
  held _ member := nomatch member
  delivered _ inside := nomatch inside

theorem nodeWithPacket_seq {packet : THPacket} {seq : Nat} (stamped : seqOf packet = some seq) :
    nodeWithPacket packet = ⟨packet, seq⟩ := by
  simp [nodeWithPacket, stamped]

/-- Admission keeps the invariant: a number seen for the first time is buffered
under this packet, one already waiting keeps the packet it has. -/
theorem inOrder_receive {view : Inbound} (ordered : InOrder view) (packet : THPacket) :
    InOrder (receive view packet) := by
  have delivered : ∀ index (inside : index < view.delivered.length),
      firstWith (view.received ++ [packet]) index =
        some (view.delivered.get ⟨index, inside⟩) :=
    fun index inside => firstWith_append (ordered.delivered index inside) _
  have firsts : ∀ node ∈ view.inPacketBuffer.chain, view.delivered.length ≤ node.seq →
      firstWith (view.received ++ [packet]) node.seq = some node.packet :=
    fun node member above => firstWith_append (ordered.firsts node member above) _
  unfold receive
  split
  · rename_i absent
    refine ⟨ordered.bounded, ordered.next, ordered.last, ordered.sorted, ordered.buffered,
      ordered.notBelow, firsts, ?_, delivered⟩
    intro other member seq stamped above
    rcases List.mem_append.mp member with old | new
    · exact ordered.held other old seq stamped above
    · rw [List.mem_singleton.mp new, absent] at stamped
      cases stamped
  · rename_i seq stamped
    split
    · rename_i admitted
      have node := nodeWithPacket_seq stamped
      refine ⟨ordered.bounded, ordered.next, ordered.last, push_sorted ordered.sorted packet,
        ?_, ?_, ?_, ?_, delivered⟩
      · intro other member
        rcases (mem_push ordered.sorted packet other).mp member with old | ⟨rfl, _⟩
        · exact ordered.buffered other old
        · rw [node]; exact stamped
      · intro other member
        rcases (mem_push ordered.sorted packet other).mp member with old | ⟨rfl, _⟩
        · exact ordered.notBelow other old
        · rw [node]; exact admitted
      · intro other member above
        rcases (mem_push ordered.sorted packet other).mp member with old | ⟨rfl, fresh⟩
        · exact firsts other old above
        · rw [node] at above fresh ⊢
          -- had the number come before, the buffer would hold it already
          exact firstWith_new packet
            (fun before received same => fresh (ordered.held before received seq same above))
            stamped
      · intro other member number same above
        refine (seqs_push ordered.sorted packet number).mpr ?_
        rcases List.mem_append.mp member with old | new
        · exact Or.inl (ordered.held other old number same above)
        · rw [List.mem_singleton.mp new, stamped] at same
          rw [node]
          exact Or.inr (Option.some.inj same).symm
    · rename_i below
      refine ⟨ordered.bounded, ordered.next, ordered.last, ordered.sorted, ordered.buffered,
        ordered.notBelow, firsts, ?_, delivered⟩
      intro other member number same above
      rcases List.mem_append.mp member with old | new
      · exact ordered.held other old number same above
      · rw [List.mem_singleton.mp new, stamped] at same
        cases same
        have last := ordered.last
        have above : view.delivered.length ≤ seq := above
        omega

/-- The front packet the loop hands over bears the number of packets handed
over before it: past 2^64 of them the expected number would wrap to 0, and no
node is that low. -/
theorem front_seq {view : Inbound} (ordered : InOrder view) {front : THPacketNode}
    {rest : List THPacketNode} (chain : view.inPacketBuffer.chain = front :: rest)
    (expected : front.seq = view.nextExpectedSequence) :
    front.seq = view.delivered.length ∧ view.delivered.length < uintModulus := by
  have inside : front ∈ view.inPacketBuffer.chain := by simp [chain]
  have below := ordered.notBelow front inside
  have bounded := ordered.bounded
  rw [ordered.last] at below
  rw [ordered.next] at expected
  rcases Nat.lt_or_eq_of_le bounded with less | full
  · rw [Nat.mod_eq_of_lt less] at expected
    exact ⟨expected, less⟩
  · rw [full, Nat.mod_self] at expected
    have positive : 1 < uintModulus := by decide
    omega

theorem inOrder_hand {view : Inbound} (ordered : InOrder view) {front : THPacketNode}
    {rest : List THPacketNode} (chain : view.inPacketBuffer.chain = front :: rest)
    (expected : front.seq = view.nextExpectedSequence) : InOrder (hand view front rest) := by
  obtain ⟨number, room⟩ := front_seq ordered chain expected
  have inside : front ∈ view.inPacketBuffer.chain := by simp [chain]
  have stamped := ordered.buffered front inside
  have sorted : Ascending THPacketNode.seq (front :: rest) := by
    rw [← chain]; exact ordered.sorted
  obtain ⟨later, tail⟩ := (ascending_cons front rest).mp sorted
  have kept : ∀ node ∈ rest, node ∈ view.inPacketBuffer.chain := by
    intro node member
    simp [chain, member]
  have handed : (hand view front rest).delivered.length = view.delivered.length + 1 := by
    simp [hand]
  have processed : (hand view front rest).lastProcessed = front.seq := by simp [hand, stamped]
  refine ⟨by omega, ?_, by omega, tail, fun node member => ordered.buffered node (kept node member),
    ?_, ?_, ?_, ?_⟩
  · rw [handed, ← number]
    simp [hand, stamped]
  · intro node member
    have above := later node member
    omega
  · intro node member _
    have above := later node member
    exact ordered.firsts node (kept node member) (by omega)
  · intro packet member seq same above
    rw [handed] at above
    have waiting := ordered.held packet member seq same (by omega)
    rw [THPacketBuffer.seqs, chain, List.map_cons, List.mem_cons] at waiting
    rcases waiting with first | behind
    · omega
    · exact behind
  · intro index within
    rcases Nat.lt_or_ge index view.delivered.length with old | new
    · rw [show firstWith (hand view front rest).received index = firstWith view.received index
        from rfl, ordered.delivered index old]
      simp [hand, List.getElem_append_left old]
    · have same : index = front.seq := by omega
      have first := ordered.firsts front inside (by omega)
      subst same
      rw [show firstWith (hand view front rest).received front.seq =
        firstWith view.received front.seq from rfl, first]
      simp [hand, number]

theorem inOrder_delivers {before after : Inbound}
    (delivers : Relation.ReflTransGen Delivers before after) (ordered : InOrder before) :
    InOrder after := by
  induction delivers with
  | refl => exact ordered
  | tail _ last ih =>
      cases last with
      | hand front rest chain expected => exact inOrder_hand ih chain expected

/-- Only an arriving packet changes the incoming half. -/
theorem inbound_step (channel : THReliableChannel) (event : Event) :
    (∃ delegate packet, event = .handlePacket delegate packet) ∨
      inbound (step channel event) = inbound channel := by
  cases event with
  | handlePacket delegate packet => exact Or.inl ⟨delegate, packet, rfl⟩
  | sendPacket packet => exact Or.inr (inbound_sendPacket channel packet)
  | close delegate => exact Or.inr (inbound_close channel delegate)
  | setState delegate state => exact Or.inr (inbound_setState channel delegate state)
  | ackPing =>
      right
      simp only [step, ackPing]
      split
      · exact inbound_sendPacket channel _
      · rfl
  | flushOut => exact Or.inr rfl

theorem inOrder_step (channel : THReliableChannel) (event : Event)
    (ordered : InOrder (inbound channel)) : InOrder (inbound (step channel event)) := by
  rcases inbound_step channel event with ⟨delegate, packet, rfl⟩ | same
  · exact inOrder_delivers (handlePacket_delivers channel delegate packet).1
      (inOrder_receive ordered packet)
  · rw [same]
    exact ordered

theorem inOrder_run (channelId : Nat) (events : List Event) :
    InOrder (inbound (run step (initToIdentity channelId) events)) := by
  have preserved : ∀ channel event, True → InOrder (inbound channel) →
      InOrder (inbound (step channel event)) := fun channel event _ => inOrder_step channel event
  exact run_invariant preserved _ events (inOrder_start channelId) (along_true _ events)

/-- The run of numbers received from 0 on has all been handed over. -/
theorem run_delivered {view : Inbound} (ordered : InOrder view)
    (free : view.nextExpectedSequence ∉ view.inPacketBuffer.seqs) {count : Nat}
    (arrived : ∀ seq < count, ∃ packet ∈ view.received, seqOf packet = some seq) :
    count ≤ view.delivered.length := by
  by_contra more
  obtain ⟨packet, member, stamped⟩ := arrived view.delivered.length (by omega)
  have waiting := ordered.held packet member _ stamped (Nat.le_refl _)
  have next := ordered.next
  rw [Nat.mod_eq_of_lt (seqOf_lt stamped)] at next
  exact free (next ▸ waiting)

theorem delivered_mem {view : Inbound} (ordered : InOrder view) {seq : Nat}
    (inside : seq < view.delivered.length) :
    ∃ packet ∈ view.delivered, seqOf packet = some seq :=
  ⟨view.delivered.get ⟨seq, inside⟩, List.get_mem _ _,
    firstWith_seq (ordered.delivered seq inside)⟩

/-! The front of the buffer. A second copy of the packet last handed over is
admitted and, being the lowest, stays in front of everything behind it. -/

def Unblocked (view : Inbound) : Prop :=
  ∀ node ∈ view.inPacketBuffer.chain, view.delivered.length ≤ node.seq

/-- The packet is another copy of the one handed over last. -/
def RepeatsLast (view : Inbound) (packet : THPacket) : Prop :=
  view.delivered ≠ [] ∧ seqOf packet = some view.lastProcessed

theorem unblocked_receive {view : Inbound} (ordered : InOrder view) (clear : Unblocked view)
    {packet : THPacket} (fresh : ¬ RepeatsLast view packet) : Unblocked (receive view packet) := by
  unfold receive Unblocked
  split
  · exact clear
  · rename_i seq stamped
    split
    · rename_i admitted
      intro node member
      rcases (mem_push ordered.sorted packet node).mp member with old | ⟨rfl, _⟩
      · exact clear node old
      · rw [nodeWithPacket_seq stamped]
        have last := ordered.last
        show view.delivered.length ≤ seq
        by_contra low
        have started : view.delivered ≠ [] := by
          intro none
          rw [none] at low
          exact low (Nat.zero_le _)
        have same : seq = view.lastProcessed := by omega
        exact fresh ⟨started, by rw [stamped, same]⟩
    · exact clear

theorem unblocked_delivers {before after : Inbound}
    (delivers : Relation.ReflTransGen Delivers before after) (ordered : InOrder before)
    (clear : Unblocked before) : Unblocked after := by
  induction delivers with
  | refl => exact clear
  | tail reached last ih =>
      cases last with
      | hand front rest chain expected =>
          have kept := inOrder_delivers reached ordered
          obtain ⟨number, _⟩ := front_seq kept chain expected
          have sorted : Ascending THPacketNode.seq (front :: rest) := by
            rw [← chain]; exact kept.sorted
          intro node member
          have above := ((ascending_cons front rest).mp sorted).1 node member
          simp only [hand, List.length_append, List.length_singleton]
          omega

/-- Once a number below the handed-over ones is in the buffer, the loop never
hands anything over again. -/
theorem blocked_idle {view : Inbound} (ordered : InOrder view) (blocked : ¬ Unblocked view) :
    Idle view := by
  intro front rest chain expected
  obtain ⟨number, _⟩ := front_seq ordered chain expected
  have sorted : Ascending THPacketNode.seq (front :: rest) := by
    rw [← chain]; exact ordered.sorted
  apply blocked
  intro node member
  rw [chain] at member
  rcases List.mem_cons.mp member with rfl | behind
  · omega
  · have later := ((ascending_cons front rest).mp sorted).1 node behind
    omega

theorem blocked_receive {view : Inbound} (ordered : InOrder view) (blocked : ¬ Unblocked view)
    (packet : THPacket) : ¬ Unblocked (receive view packet) := by
  intro clear
  apply blocked
  intro node member
  apply clear node
  unfold receive
  split
  · exact member
  · split
    · exact (mem_push ordered.sorted packet node).mpr (Or.inl member)
    · exact member

/-- A packet that arrives when the front is, or becomes, an old number only joins
the buffer. -/
theorem blocked_handlePacket {channel : THReliableChannel} {packet : THPacket}
    (ordered : InOrder (inbound channel)) (blocked : ¬ Unblocked (receive (inbound channel) packet))
    (delegate : Delegate) :
    inbound (channel.handlePacket delegate packet) = receive (inbound channel) packet := by
  have idle := blocked_idle (inOrder_receive ordered packet) blocked
  obtain ⟨delivers, _⟩ := handlePacket_delivers channel delegate packet
  rcases Relation.ReflTransGen.cases_head delivers with same | ⟨_, first, _⟩
  · exact same.symm
  · cases first with
    | hand front rest chain expected => exact absurd expected (idle front rest chain)

/-- A blocked channel delivers nothing more in any run. -/
theorem blocked_run (channel : THReliableChannel) (ordered : InOrder (inbound channel))
    (blocked : ¬ Unblocked (inbound channel)) (events : List Event) :
    (run step channel events).history.delivered = channel.history.delivered := by
  induction events generalizing channel with
  | nil => rfl
  | cons event rest ih =>
      have kept : ¬ Unblocked (inbound (step channel event)) ∧
          (step channel event).history.delivered = channel.history.delivered := by
        rcases inbound_step channel event with ⟨delegate, packet, rfl⟩ | same
        · have after := blocked_receive ordered blocked packet
          have view := blocked_handlePacket ordered after delegate
          refine ⟨?_, congrArg Inbound.delivered view⟩
          simp only [step, view]
          exact after
        · refine ⟨?_, congrArg Inbound.delivered same⟩
          rw [same]
          exact blocked
      rw [run_cons, ih _ (inOrder_step channel event ordered) kept.1, kept.2]

theorem idle_free {view : Inbound} (ordered : InOrder view) (clear : Unblocked view)
    (idle : Idle view) : view.nextExpectedSequence ∉ view.inPacketBuffer.seqs := by
  intro waiting
  obtain ⟨node, member, same⟩ := List.mem_map.mp waiting
  have stamped := seqOf_lt (ordered.buffered node member)
  have above := clear node member
  have next := ordered.next
  rw [Nat.mod_eq_of_lt (by omega)] at next
  cases chain : view.inPacketBuffer.chain with
  | nil =>
      rw [chain] at member
      cases member
  | cons front rest =>
      have first := clear front (by simp [chain])
      have different := idle front rest chain
      have sorted : Ascending THPacketNode.seq (front :: rest) := by
        rw [← chain]; exact ordered.sorted
      rw [chain] at member
      rcases List.mem_cons.mp member with rfl | behind
      · exact different same
      · have later := ((ascending_cons front rest).mp sorted).1 node behind
        omega

/-- Nothing waits: the delegate has every packet of the run received from 0 on,
and the expected packet is not in the buffer. -/
structure NoStall (view : Inbound) : Prop where
  handed : ∀ count, (∀ seq < count, ∃ packet ∈ view.received, seqOf packet = some seq) →
    ∀ seq < count, ∃ packet ∈ view.delivered, seqOf packet = some seq
  notWaiting : view.nextExpectedSequence ∉ view.inPacketBuffer.seqs

theorem noStall_of_free {view : Inbound} (ordered : InOrder view)
    (free : view.nextExpectedSequence ∉ view.inPacketBuffer.seqs) : NoStall view where
  handed _ arrived _ below :=
    delivered_mem ordered (Nat.lt_of_lt_of_le below (run_delivered ordered free arrived))
  notWaiting := free

def Alive (channel : THReliableChannel) : Prop := ¬ channel.state.Halted

instance (channel : THReliableChannel) : Decidable (Alive channel) := by
  unfold Alive; infer_instance

def Fresh (channel : THReliableChannel) : Event → Prop
  | .handlePacket _ packet => ¬ RepeatsLast (inbound channel) packet
  | _ => True

/-- What a run without repeats of the last packet keeps while the channel lives. -/
structure Flowing (view : Inbound) : Prop where
  ordered : InOrder view
  unblocked : Unblocked view
  free : view.nextExpectedSequence ∉ view.inPacketBuffer.seqs

theorem flowing_start (channelId : Nat) : Flowing (inbound (initToIdentity channelId)) :=
  ⟨inOrder_start channelId, List.forall_mem_nil _, by intro member; cases member⟩

theorem flowing_step (channel : THReliableChannel) (event : Event)
    (fresh : Fresh channel event) (alive : Alive (step channel event))
    (flowing : Flowing (inbound channel)) : Flowing (inbound (step channel event)) := by
  have ordered := inOrder_step channel event flowing.ordered
  rcases inbound_step channel event with ⟨delegate, packet, rfl⟩ | same
  · obtain ⟨delivers, stopped⟩ := handlePacket_delivers channel delegate packet
    have received := unblocked_receive flowing.ordered flowing.unblocked fresh
    have clear := unblocked_delivers delivers (inOrder_receive flowing.ordered packet) received
    rcases stopped with ended | idle
    · exact absurd (Or.inl ended) alive
    · exact ⟨ordered, clear, idle_free ordered clear idle⟩
  · rw [same]
    exact flowing

/-- As long as the channel lives and no packet repeats the one handed over last,
nothing waits, whatever else arrives in whatever order. -/
theorem no_stall_without_repeat (channelId : Nat) (events : List Event)
    (fresh : Along step Fresh (initToIdentity channelId) events)
    (alive : Throughout step (Alive)
      (initToIdentity channelId) events) :
    Throughout step (fun channel => NoStall (inbound channel))
      (initToIdentity channelId) events := by
  have start := flowing_start channelId
  generalize initToIdentity channelId = channel at fresh alive start
  induction events generalizing channel with
  | nil => exact noStall_of_free start.ordered start.free
  | cons event rest ih =>
      have lives : Alive (step channel event) := throughout_start alive.2
      have next := flowing_step channel event fresh.1 lives start
      exact ⟨noStall_of_free start.ordered start.free, ih _ fresh.2 alive.2 next⟩

def packetWithSeq (seq : Nat) : THPacket := THPacket.new.setObject (.number seq) "seq"

def arrival (seq : Nat) : Event := .handlePacket .none (packetWithSeq seq)

theorem no_stall_reversed_arrivals :
    Along step Fresh (initToIdentity 1) [arrival 1, arrival 0] ∧
      Throughout step (fun channel => NoStall (inbound channel)) (initToIdentity 1)
        [arrival 1, arrival 0] := by
  have fresh : Along step Fresh (initToIdentity 1) [arrival 1, arrival 0] :=
    ⟨fun repeated => repeated.1 rfl, fun repeated => repeated.1 rfl, trivial⟩
  exact ⟨fresh, no_stall_without_repeat 1 _ fresh (by decide)⟩

/-- A second copy of packet 0 stays in front of packet 1 for good. -/
theorem repeated_first_packet_stalls :
    Throughout step (Alive) (initToIdentity 1)
        [arrival 0, arrival 0, arrival 1] ∧
      (inbound (run step (initToIdentity 1) [arrival 0, arrival 0, arrival 1])).received.map seqOf =
        [some 0, some 0, some 1] ∧
      ¬ NoStall (inbound (run step (initToIdentity 1) [arrival 0, arrival 0, arrival 1])) := by
  refine ⟨by decide, by decide, fun none => ?_⟩
  have waiting : (inbound (run step (initToIdentity 1)
      [arrival 0, arrival 0, arrival 1])).inPacketBuffer.seqs = [0, 1] := by decide
  apply none.notWaiting
  rw [waiting]
  decide

end Telehash.ReliableInbound
