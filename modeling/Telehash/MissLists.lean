import Telehash.ReliableSteps

/-!
The `miss` field of outgoing packets. The list the channel keeps is computed in
front of each delivery and read by every later send, so the question is whether
it still names the numbers that are missing then.
-/

namespace Telehash.MissLists
open Foundation Packet PacketBuffer OrderedChain Channel ReliableChannel ReliableViews
open ReliableInbound ReliableOutbound ReliableSteps THReliableChannel Runs

def Heard (heard : List THPacket) (seq : Nat) : Prop :=
  ∃ packet ∈ heard, seqOf packet = some seq

/-- Below the highest number heard and never heard itself. -/
def Missing (heard : List THPacket) (seq : Nat) : Prop :=
  (∃ high, Heard heard high ∧ seq < high) ∧ ¬ Heard heard seq

/-- The missing numbers, each once and in ascending order. -/
def Lists (heard : List THPacket) (seqs : List Nat) : Prop :=
  seqs.Pairwise (· < ·) ∧ ∀ seq, seq ∈ seqs ↔ Missing heard seq

/-- A packet whose caller set no `miss` goes out with exactly the missing
numbers, or with no such field when there are none. -/
def MissExact (heard : List THPacket) (channel : THReliableChannel) (packet : THPacket) : Prop :=
  packet.objectForKey "miss" = none → ∃ seqs : List Nat, Lists heard seqs ∧
    (channel.outgoing packet).objectForKey "miss" =
      if seqs = [] ∨ packet.json = none then none
      else some (.array (seqs.map fun seq : Nat => .number seq))

def heardIn : Primitive → List THPacket
  | .arrive packet => [packet]
  | _ => []

/-- A packet counts as received from the moment `handlePacket:` is entered. -/
def hear (heard : List THPacket) (_ : THReliableChannel) (primitive : Primitive) :
    List THPacket :=
  heard ++ heardIn primitive

def SendsExact (noted : Noted THReliableChannel (List THPacket)) : Primitive → Prop
  | .send packet => ¬ noted.state.state.Halted → MissExact noted.note noted.state packet
  | _ => True

/-! ## The list that is computed -/

theorem addMissing_append (missing : Option (List Nat)) (first second : List Nat) :
    addMissing (addMissing missing first) second = addMissing missing (first ++ second) := by
  unfold addMissing
  by_cases none : first = [] <;> by_cases empty : second = [] <;> simp [none, empty]

/-- On an ascending chain the loop collects the numbers between its own. -/
theorem missingBetween_eq (missing : Option (List Nat)) (nodes : List THPacketNode)
    (ascending : Ascending THPacketNode.seq nodes)
    (small : ∀ node ∈ nodes, node.seq < uintModulus) :
    missingBetween missing nodes = addMissing missing (gaps (nodes.map THPacketNode.seq)) := by
  induction nodes generalizing missing with
  | nil => simp [missingBetween, gaps, addMissing]
  | cons curNode rest ih =>
      cases rest with
      | nil => simp [missingBetween, gaps, addMissing]
      | cons nextNode later =>
          obtain ⟨below, tail⟩ := (ascending_cons _ _).mp ascending
          have first : curNode.seq < nextNode.seq := below nextNode List.mem_cons_self
          have room := small nextNode (by simp)
          have follows : (curNode.seq + 1) % uintModulus = curNode.seq + 1 :=
            Nat.mod_eq_of_lt (by omega)
          have extended : (if nextNode.seq ≠ curNode.seq + 1 then some (missing.getD [] ++
                List.range' (curNode.seq + 1) (nextNode.seq - (curNode.seq + 1)))
              else missing) =
              addMissing missing
                (List.range' (curNode.seq + 1) (nextNode.seq - (curNode.seq + 1))) := by
            unfold addMissing
            by_cases next : nextNode.seq = curNode.seq + 1
            · simp [next]
            · have filled : nextNode.seq - (curNode.seq + 1) ≠ 0 := by omega
              simp [next, filled]
          rw [missingBetween, follows]
          simp only [extended]
          rw [ih _ tail fun node member => small node (List.mem_cons_of_mem _ member),
            addMissing_append]
          simp [gaps]

/-- The list a look leaves behind, for what was heard. -/
def Current (heard : List THPacket) (missing : Option (List Nat)) : Prop :=
  ∃ seqs, Lists heard seqs ∧ missing = if seqs = [] then none else some seqs

theorem heard_below {view : Inbound} (ordered : InOrder view) {seq : Nat}
    (below : seq < view.delivered.length) : Heard view.received seq := by
  have found := ordered.delivered seq below
  exact ⟨_, firstWith_mem found, firstWith_seq found⟩

theorem heard_iff_waiting {view : Inbound} (ordered : InOrder view) {seq : Nat}
    (above : view.delivered.length ≤ seq) :
    Heard view.received seq ↔ seq ∈ view.inPacketBuffer.seqs := by
  constructor
  · rintro ⟨packet, member, stamped⟩
    exact ordered.held packet member seq stamped above
  · intro waiting
    obtain ⟨node, member, rfl⟩ := List.mem_map.mp waiting
    have found := ordered.firsts node member above
    exact ⟨_, firstWith_mem found, firstWith_seq found⟩

/-- The missing numbers are the gaps of the buffer. -/
theorem missing_iff_gap {view : Inbound} (ordered : InOrder view) (seq : Nat) :
    Missing view.received seq ↔ view.delivered.length ≤ seq ∧
      (∃ high ∈ view.inPacketBuffer.seqs, seq < high) ∧ seq ∉ view.inPacketBuffer.seqs := by
  constructor
  · rintro ⟨⟨high, heard, under⟩, unheard⟩
    have above : view.delivered.length ≤ seq := by
      rcases Nat.lt_or_ge seq view.delivered.length with below | above
      · exact absurd (heard_below ordered below) unheard
      · exact above
    have waits := (heard_iff_waiting ordered (by omega)).mp heard
    rw [heard_iff_waiting ordered above] at unheard
    exact ⟨above, ⟨high, waits, under⟩, unheard⟩
  · rintro ⟨above, ⟨high, waits, under⟩, absent⟩
    have heard := (heard_iff_waiting ordered (by omega)).mpr waits
    rw [← heard_iff_waiting ordered above] at absent
    exact ⟨⟨high, heard, under⟩, absent⟩

/-- A look with packets in the buffer finds exactly the missing numbers, unless
all 2^64 numbers have been handed over. -/
theorem look_current {view : Inbound} (ordered : InOrder view)
    (filled : view.inPacketBuffer.chain ≠ []) (room : view.delivered.length < uintModulus) :
    Current view.received
      (view.inPacketBuffer.missingSeqFrom view.nextExpectedSequence) := by
  obtain ⟨front, rest, chain⟩ := List.exists_cons_of_ne_nil filled
  have next : view.nextExpectedSequence = view.delivered.length := by
    rw [ordered.next, Nat.mod_eq_of_lt room]
  have ascending : Ascending THPacketNode.seq (front :: rest) := chain ▸ ordered.sorted
  have small : ∀ node ∈ front :: rest, node.seq < uintModulus :=
    fun node member => seqOf_lt (ordered.buffered node (chain ▸ member))
  have notBelow : ∀ node ∈ front :: rest, view.delivered.length - 1 ≤ node.seq :=
    fun node member => ordered.last ▸ ordered.notBelow node (chain ▸ member)
  have numbers : (front.seq :: rest.map THPacketNode.seq).Pairwise (· < ·) :=
    List.pairwise_map.mpr ascending
  let low := List.range' view.delivered.length (front.seq - view.delivered.length)
  let between := gaps (front.seq :: rest.map THPacketNode.seq)
  have found : view.inPacketBuffer.missingSeqFrom view.nextExpectedSequence =
      addMissing none (low ++ between) := by
    rw [THPacketBuffer.missingSeqFrom, chain, next]
    simp only
    rw [missingBetween_eq _ _ ascending small, addMissing_append]
    rfl
  have seqs : view.inPacketBuffer.seqs = front.seq :: rest.map THPacketNode.seq := by
    simp [THPacketBuffer.seqs, chain]
  refine ⟨low ++ between, ⟨?_, fun seq => ?_⟩, by rw [found]; rfl⟩
  · refine List.pairwise_append.mpr ⟨List.pairwise_lt_range', gaps_ascending numbers, ?_⟩
    intro early before late after
    have under := List.mem_range'_1.mp before
    have above := ((mem_gaps numbers late).mp after).1
    omega
  · have first := notBelow front List.mem_cons_self
    have later := (List.pairwise_cons.mp numbers).1
    rw [missing_iff_gap ordered, seqs, List.mem_append, List.mem_range'_1, mem_gaps numbers,
      List.mem_cons, not_or]
    constructor
    · rintro (⟨above, under⟩ | ⟨above, ⟨high, inside, under⟩, absent⟩)
      · -- below the front of the buffer
        refine ⟨above, ⟨front.seq, List.mem_cons_self, by omega⟩, by omega, fun member => ?_⟩
        have := later seq member
        omega
      · exact ⟨by omega, ⟨high, List.mem_cons_of_mem _ inside, under⟩, by omega, absent⟩
    · rintro ⟨above, ⟨high, inside, under⟩, other, absent⟩
      rcases Nat.lt_or_ge seq front.seq with before | behind
      · exact Or.inl ⟨above, by omega⟩
      · refine Or.inr ⟨by omega, ⟨high, ?_, under⟩, absent⟩
        rcases List.mem_cons.mp inside with rfl | inner
        · omega
        · exact inner

/-- A list that is current makes the next send exact. -/
theorem exact_send {heard : List THPacket} {channel : THReliableChannel}
    (current : Current heard channel.missing) (packet : THPacket) :
    MissExact heard channel packet := by
  intro free
  obtain ⟨seqs, lists, kept⟩ := current
  refine ⟨seqs, lists, ?_⟩
  have unset : (channel.stampSeq packet).objectForKey "miss" = none := by
    rw [stampSeq_objectForKey _ _ (by decide), free]
  have present := stampSeq_json_isSome channel packet
  have outside : (channel.outgoing packet).objectForKey "miss" =
      (channel.stampMiss (channel.stampSeq packet)).objectForKey "miss" := by
    rw [outgoing, stampAck_objectForKey _ _ (by decide), stampId_objectForKey _ _ (by decide)]
  rw [outside]
  unfold stampMiss
  by_cases void : seqs = []
  · simp [unset, kept, void]
  · simp only [unset, kept, void, ↓reduceIte, false_or]
    cases json : packet.json with
    | none =>
        rw [json] at present
        have missing : (channel.stampSeq packet).json = none :=
          Option.isSome_eq_false_iff.mp present |> Option.isNone_iff_eq_none.mp
        simp [objectForKey_setObject_absent _ _ _ _ missing]
    | some fields =>
        rw [json] at present
        rw [objectForKey_setObject_same _ _ _ present]
        simp [← List.map_eq_flatMap]

/-! ## Steps that leave the list alone -/

theorem stable_missing (missing : Option (List Nat)) :
    Stable fun channel => channel.missing = missing where
  sends channel packet same := by rw [missing_sendPacket, same]
  halts _ _ _ same := same
  deregisters _ same := same

theorem missing_handToDelegate (channel : THReliableChannel) (delegate : Delegate)
    (packet : THPacket) (rest : List THPacketNode) :
    (channel.handToDelegate delegate packet rest).missing = channel.missing := by
  have performed := stable_performAll (stable_missing channel.missing) (channel.pop packet rest)
    delegate (delegate.handlePacket packet) rfl
  obtain ⟨_, _, handed⟩ := handToDelegate_eq channel delegate packet rest
  rw [handed]
  exact performed

/-- Sends, changes of state and flushes. -/
def Calm : Primitive → Prop
  | .send _ => True
  | .become _ => True
  | .deregister => True
  | .flush => True
  | _ => False

theorem calm_called {primitive : Primitive} (called : Called primitive) : Calm primitive := by
  cases primitive <;> trivial

theorem run_hear (noted : Noted THReliableChannel (List THPacket)) (primitives : List Primitive) :
    run (annotate hear apply) noted primitives =
      ⟨run apply noted.state primitives, noted.note ++ primitives.flatMap heardIn⟩ := by
  induction primitives generalizing noted with
  | nil => simp
  | cons primitive rest ih => simp [ih, annotate, hear]

theorem unheard_called {primitives : List Primitive}
    (called : ∀ primitive ∈ primitives, Called primitive) :
    primitives.flatMap heardIn = [] := by
  rw [List.flatMap_eq_nil_iff]
  intro primitive member
  have called := called primitive member
  cases primitive <;> trivial

theorem sends_calm {noted : Noted THReliableChannel (List THPacket)} {primitives : List Primitive}
    (calm : ∀ primitive ∈ primitives, Calm primitive)
    (current : Current noted.note noted.state.missing) :
    Along (annotate hear apply) SendsExact noted primitives := by
  have kept : ∀ (reached : Noted THReliableChannel (List THPacket)) (primitive : Primitive),
      Calm primitive → Current reached.note reached.state.missing →
      Current (annotate hear apply reached primitive).note
        (annotate hear apply reached primitive).state.missing := by
    intro reached primitive calm current
    cases primitive with
    | send packet => simpa [annotate, hear, heardIn, apply] using current
    | become | deregister | flush => simpa [annotate, hear, heardIn, apply, deregister, flushOut]
        using current
    | arrive | see | resend | clear | adopt | receive | enqueue | look | pop | process =>
        exact calm.elim
  have exact_ : ∀ (reached : Noted THReliableChannel (List THPacket)) (primitive : Primitive),
      Calm primitive → Current reached.note reached.state.missing →
      SendsExact reached primitive := by
    intro reached primitive _ current
    cases primitive <;> first | trivial | exact fun _ => exact_send current _
  exact along_invariant kept exact_ noted primitives current
    (along_of_forall noted primitives calm)

theorem sends_halted {noted : Noted THReliableChannel (List THPacket)}
    {primitives : List Primitive} (called : ∀ primitive ∈ primitives, Called primitive)
    (halted : noted.state.state.Halted) :
    Along (annotate hear apply) SendsExact noted primitives := by
  have kept : ∀ (reached : Noted THReliableChannel (List THPacket)) (primitive : Primitive),
      Called primitive → reached.state.state.Halted →
      (annotate hear apply reached primitive).state.state.Halted := by
    intro reached primitive called halted
    cases primitive with
    | send packet => simpa [annotate, apply] using halted
    | become state => exact called
    | deregister => exact halted
    | arrive | see | resend | clear | adopt | receive | enqueue | look | pop | process | flush =>
        exact called.elim
  have exact_ : ∀ (reached : Noted THReliableChannel (List THPacket)) (primitive : Primitive),
      Called primitive → reached.state.state.Halted → SendsExact reached primitive := by
    intro reached primitive _ halted
    cases primitive <;> first | trivial | exact fun alive => absurd halted alive
  exact along_invariant kept exact_ noted primitives halted
    (along_of_forall noted primitives called)

/-! ## The delivery loop -/

/-- Not all 2^64 numbers are handed over while packets wait. -/
def Roomy (view : Inbound) : Prop :=
  view.inPacketBuffer.chain ≠ [] → view.delivered.length < uintModulus

theorem roomy_hand {view : Inbound} (ordered : InOrder view) {front : THPacketNode}
    {rest : List THPacketNode} (chain : view.inPacketBuffer.chain = front :: rest)
    (expected : front.seq = view.nextExpectedSequence) : Roomy (hand view front rest) := by
  intro filled
  obtain ⟨number, _⟩ := front_seq ordered chain expected
  obtain ⟨later, others, same⟩ := List.exists_cons_of_ne_nil filled
  have same : rest = later :: others := same
  subst same
  have sorted : Ascending THPacketNode.seq (front :: later :: others) := by
    rw [← chain]
    exact ordered.sorted
  have above := ((ascending_cons _ _).mp sorted).1 later List.mem_cons_self
  have small := seqOf_lt (ordered.buffered later (by simp [chain]))
  simp only [hand, List.length_append, List.length_singleton]
  omega

theorem looked_current {channel : THReliableChannel}
    (filled : channel.inPacketBuffer.chain ≠ []) (ordered : InOrder (inbound channel))
    (room : Roomy (inbound channel)) :
    Current channel.history.received channel.lookForMissing.missing :=
  look_current ordered filled (room filled)

/-- What a turn of the loop hands on to the next. -/
theorem handed_spec {channel : THReliableChannel} (delegate : Delegate) {front : THPacketNode}
    {rest : List THPacketNode} (held : channel.inPacketBuffer.chain = front :: rest)
    (ordered : InOrder (inbound channel))
    (expected : front.seq = channel.nextExpectedSequence) :
    let handed := channel.lookForMissing.handToDelegate delegate front.packet rest
    handed.inPacketBuffer.chain = rest ∧ InOrder (inbound handed) ∧ Roomy (inbound handed) ∧
      handed.history.received = channel.history.received ∧
      handed.missing = channel.lookForMissing.missing := by
  intro handed
  have view : inbound handed = hand (inbound channel) front rest :=
    inbound_handToDelegate channel.lookForMissing delegate front rest
  refine ⟨congrArg (fun seen => seen.inPacketBuffer.chain) view, ?_, ?_,
    congrArg Inbound.received view, missing_handToDelegate _ delegate _ _⟩
  · rw [view]
    exact inOrder_hand ordered held expected
  · rw [view]
    exact roomy_hand ordered held expected

/-- The list the loop leaves is the one of its last look, or the one before it
if the buffer was empty. -/
theorem current_deliver (delegate : Delegate) (nodes : List THPacketNode)
    (channel : THReliableChannel) (held : channel.inPacketBuffer.chain = nodes)
    (ordered : InOrder (inbound channel)) (room : Roomy (inbound channel))
    (listed : Current channel.history.received channel.missing ∨ nodes ≠ []) :
    Current channel.history.received (deliver delegate nodes channel).missing := by
  induction nodes generalizing channel with
  | nil => exact listed.resolve_right fun filled => filled rfl
  | cons front rest ih =>
      have filled : channel.inPacketBuffer.chain ≠ [] := by simp [held]
      have current := looked_current filled ordered room
      let looked := channel.lookForMissing
      unfold deliver
      by_cases expected : front.seq = channel.nextExpectedSequence
      · simp only [expected, ne_eq, not_true_eq_false, ↓reduceIte]
        obtain ⟨chain, inOrder, roomy, received, kept⟩ :=
          handed_spec delegate held ordered expected
        let handed := looked.handToDelegate delegate front.packet rest
        split
        · have closed := stable_close (stable_missing looked.missing) _ delegate
            (stable_setEnded (stable_missing looked.missing) handed delegate kept)
          exact closed ▸ current
        · have onward := ih handed chain inOrder roomy
          rw [received, kept] at onward
          exact onward (Or.inl current)
      · simp only [ne_eq, expected, not_false_eq_true, ↓reduceIte]
        rw [stable_outOfOrder (stable_missing looked.missing) looked rfl]
        exact current

theorem calm_outOfOrderSteps (channel : THReliableChannel) :
    ∀ primitive ∈ outOfOrderSteps channel, Calm primitive := by
  intro primitive member
  unfold outOfOrderSteps at member
  split at member
  · rw [List.mem_singleton.mp member]
    trivial
  · cases member

/-- Every send of the loop follows a look. -/
theorem exact_deliver (delegate : Delegate) (nodes : List THPacketNode)
    (channel : THReliableChannel) (held : channel.inPacketBuffer.chain = nodes)
    (ordered : InOrder (inbound channel)) (room : Roomy (inbound channel)) :
    Along (annotate hear apply) SendsExact ⟨channel, channel.history.received⟩
      (deliverSteps delegate nodes channel) := by
  induction nodes generalizing channel with
  | nil => trivial
  | cons front rest ih =>
      have filled : channel.inPacketBuffer.chain ≠ [] := by simp [held]
      have current := looked_current filled ordered room
      let looked := channel.lookForMissing
      unfold deliverSteps
      by_cases expected : front.seq = channel.nextExpectedSequence
      · simp only [expected, ne_eq, not_true_eq_false, ↓reduceIte]
        obtain ⟨chain, inOrder, roomy, received, kept⟩ :=
          handed_spec delegate held ordered expected
        let popped := looked.pop front.packet rest
        let handed := looked.handToDelegate delegate front.packet rest
        have called := called_callsSteps delegate popped (delegate.handlePacket front.packet)
        have sends := ih handed chain inOrder roomy
        rw [received] at sends
        refine ⟨trivial, trivial, (along_append _ _ _).mpr ⟨?_, ?_⟩⟩
        · -- the calls of the delegate, in the list just looked up
          refine sends_calm (fun primitive member => calm_called (called primitive member)) ?_
          simpa [annotate, hear, heardIn, apply, pop] using current
        · rw [run_hear, unheard_called called]
          refine ⟨trivial, ?_⟩
          simp only [annotate, hear, heardIn, List.append_nil]
          change Along (annotate hear apply) SendsExact
            ⟨apply (run apply popped (callsSteps delegate popped
              (delegate.handlePacket front.packet))) (.process front.packet), _⟩ _
          rw [run_handing looked delegate front rest]
          split
          · refine sends_calm (fun primitive member => calm_called ?_) (kept ▸ current)
            rcases List.mem_append.mp member with ended | closing
            · exact called_endedSteps delegate primitive ended
            · exact called_closeSteps _ delegate primitive closing
          · exact sends
      · simp only [ne_eq, expected, not_false_eq_true, ↓reduceIte]
        refine ⟨trivial, sends_calm (calm_outOfOrderSteps _) ?_⟩
        simpa [annotate, hear, heardIn, apply] using current

/-! ## A packet that arrives -/

/-- One above all numbers heard, or 0 when there is none. -/
def NextUp (heard : List THPacket) (seq : Nat) : Prop :=
  (∀ other, Heard heard other → other < seq) ∧ (seq = 0 ∨ Heard heard (seq - 1))

/-- Its number, if any, neither opens nor closes a gap. -/
def Unmoved (heard : List THPacket) (packet : THPacket) : Prop :=
  ∀ seq, seqOf packet = some seq → Heard heard seq ∨ NextUp heard seq

theorem heard_append (heard : List THPacket) (packet : THPacket) (seq : Nat) :
    Heard (heard ++ [packet]) seq ↔ Heard heard seq ∨ seqOf packet = some seq := by
  simp [Heard, or_and_right, exists_or]

theorem missing_unmoved {heard : List THPacket} {packet : THPacket}
    (unmoved : Unmoved heard packet) (seq : Nat) :
    Missing (heard ++ [packet]) seq ↔ Missing heard seq := by
  simp only [Missing, heard_append]
  constructor
  · rintro ⟨⟨high, above | new, under⟩, unheard⟩
    · exact ⟨⟨high, above, under⟩, fun known => unheard (Or.inl known)⟩
    · refine ⟨?_, fun known => unheard (Or.inl known)⟩
      rcases unmoved high new with known | ⟨_, zero | before⟩
      · exact ⟨high, known, under⟩
      · omega
      · refine ⟨high - 1, before, ?_⟩
        have other : seq ≠ high - 1 := fun same => unheard (Or.inl (same ▸ before))
        omega
  · rintro ⟨⟨high, above, under⟩, unheard⟩
    refine ⟨⟨high, Or.inl above, under⟩, ?_⟩
    rintro (known | new)
    · exact unheard known
    · rcases unmoved seq new with known | ⟨top, _⟩
      · exact unheard known
      · have := top high above
        omega

theorem current_unmoved {heard : List THPacket} {packet : THPacket}
    (unmoved : Unmoved heard packet) {missing : Option (List Nat)}
    (current : Current heard missing) : Current (heard ++ [packet]) missing := by
  obtain ⟨seqs, ⟨ascending, exact_⟩, kept⟩ := current
  exact ⟨seqs, ⟨ascending, fun seq => (exact_ seq).trans (missing_unmoved unmoved seq).symm⟩, kept⟩

/-- The two ways the list is read or computed too late: a delegate that answers
an error by sending while the packet's own number opens or closes a gap, and
another copy of packet 2^64 - 1 when all numbers have been handed over. -/
def Timely (channel : THReliableChannel) : Event → Prop
  | .handlePacket delegate packet =>
      (channel.state.Halted ∨
        (∀ err, packet.objectForKey "err" = some err → delegate.didFailWithError err = []) ∨
        Unmoved channel.history.received packet) ∧
      ¬ (channel.lastProcessed + 1 = uintModulus ∧ seqOf packet = some channel.lastProcessed)
  | _ => True

/-- What holds between any two events. -/
structure Settled (channel : THReliableChannel) : Prop where
  ordered : InOrder (inbound channel)
  room : Roomy (inbound channel)
  current : Current channel.history.received channel.missing

theorem settled_start (channelId : Nat) : Settled (initToIdentity channelId) where
  ordered := inOrder_start channelId
  room filled := absurd rfl filled
  current := ⟨[], ⟨List.Pairwise.nil, by simp [Missing, Heard, initToIdentity]⟩, rfl⟩

theorem sends_superSteps {channel : THReliableChannel} {delegate : Delegate} {packet : THPacket}
    (timely : Timely channel (.handlePacket delegate packet)) (settled : Settled channel) :
    Along (annotate hear apply) SendsExact
      ⟨channel, channel.history.received ++ [packet]⟩ (superSteps channel delegate packet) := by
  have called := called_superSteps channel delegate packet
  rcases timely.1 with halted | quiet | unmoved
  · exact sends_halted called halted
  · unfold superSteps at called ⊢
    cases failed : packet.objectForKey "err" with
    | none => trivial
    | some err =>
        simp only [failed, quiet err failed] at called ⊢
        -- the state is Errored before anything else is called
        refine ⟨trivial, sends_halted (fun primitive member => ?_) (Or.inr rfl)⟩
        exact called primitive (List.mem_cons_of_mem _ member)
  · exact sends_calm (fun primitive member => calm_called (called primitive member))
      (current_unmoved unmoved settled.current)

theorem sends_admitSteps {channel : THReliableChannel} {delegate : Delegate} {packet : THPacket}
    (timely : Timely channel (.handlePacket delegate packet)) (settled : Settled channel) :
    Along (annotate hear apply) SendsExact
      ⟨channel, channel.history.received ++ [packet]⟩ (admitSteps channel delegate packet) := by
  refine (along_append _ _ _).mpr ⟨sends_superSteps timely settled, ?_⟩
  apply along_everywhere
  intro primitive member reached
  simp only [List.mem_cons, List.mem_append, mem_missSteps, mem_ackSteps, List.not_mem_nil,
    or_false] at member
  rcases member with rfl | ⟨_, _, rfl⟩ | ⟨_, _, rfl⟩ | rfl | rfl | rfl <;> trivial

theorem unheard_admitSteps (channel : THReliableChannel) (delegate : Delegate)
    (packet : THPacket) : (admitSteps channel delegate packet).flatMap heardIn = [] := by
  unfold admitSteps
  rw [List.flatMap_append, unheard_called (called_superSteps channel delegate packet)]
  rw [List.nil_append, List.flatMap_eq_nil_iff]
  intro primitive member
  simp only [List.mem_cons, List.mem_append, mem_missSteps, mem_ackSteps, List.not_mem_nil,
    or_false] at member
  rcases member with rfl | ⟨_, _, rfl⟩ | ⟨_, _, rfl⟩ | rfl | rfl | rfl <;> rfl

theorem unheard_deliverSteps (delegate : Delegate) (nodes : List THPacketNode)
    (channel : THReliableChannel) :
    (deliverSteps delegate nodes channel).flatMap heardIn = [] := by
  rw [List.flatMap_eq_nil_iff]
  intro primitive member
  have delivering := delivering_deliverSteps delegate nodes channel primitive member
  cases primitive <;> trivial

theorem roomy_delivers {before after : Inbound} (path : Relation.ReflTransGen Delivers before after)
    (ordered : InOrder before) (room : Roomy before) : InOrder after ∧ Roomy after := by
  induction path with
  | refl => exact ⟨ordered, room⟩
  | tail _ last ih =>
      cases last with
      | hand front rest chain expected =>
          exact ⟨inOrder_hand ih.1 chain expected, roomy_hand ih.1 chain expected⟩

theorem missing_admitted (channel : THReliableChannel) (delegate : Delegate)
    (packet : THPacket) : (admitted channel delegate packet).missing = channel.missing := by
  have failed := stable_superHandlePacket (stable_missing channel.missing) channel delegate packet
    rfl
  obtain ⟨_, _, _, _, before⟩ := beforeAdmission_eq channel delegate packet
  obtain ⟨_, entered⟩ := enqueue_eq
    ((channel.beforeAdmission delegate packet).noteReceived packet) packet
  rw [admitted, entered, before]
  exact failed

/-- A packet that leaves the incoming buffer empty changes no gap. -/
theorem unmoved_unbuffered {view : Inbound} {packet : THPacket} (ordered : InOrder view)
    (empty : (receive view packet).inPacketBuffer.chain = []) :
    Unmoved view.received packet := by
  intro seq stamped
  rcases Nat.lt_or_ge seq view.lastProcessed with below | admitted
  · have last := ordered.last
    exact Or.inl (heard_below ordered (by omega))
  · have pushed : (receive view packet).inPacketBuffer = view.inPacketBuffer.push packet := by
      simp [receive, stamped, admitted]
    have inside := (seqs_push ordered.sorted packet (nodeWithPacket packet).seq).mpr (Or.inr rfl)
    rw [← pushed, THPacketBuffer.seqs, empty] at inside
    cases inside

theorem roomy_receive {view : Inbound} {packet : THPacket} (ordered : InOrder view)
    (room : Roomy view)
    (new : ¬ (view.lastProcessed + 1 = uintModulus ∧ seqOf packet = some view.lastProcessed)) :
    Roomy (receive view packet) := by
  intro filled
  have bounded : view.delivered.length ≤ uintModulus := ordered.bounded
  rcases Nat.lt_or_eq_of_le bounded with less | full
  · exact less
  · exfalso
    have last := ordered.last
    have many : 1 < uintModulus := by decide
    apply filled
    have empty : view.inPacketBuffer.chain = [] := by
      by_contra waits
      exact absurd (room waits) (by omega)
    unfold receive
    split
    · exact empty
    · rename_i seq stamped
      have small := seqOf_lt stamped
      split
      · rename_i above
        exact absurd ⟨by omega, stamped.trans (congrArg some (by omega))⟩ new
      · exact empty

theorem exact_handle {channel : THReliableChannel} {delegate : Delegate} {packet : THPacket}
    (timely : Timely channel (.handlePacket delegate packet)) (settled : Settled channel) :
    Along (annotate hear apply) SendsExact ⟨channel, channel.history.received⟩
        (handleSteps channel delegate packet) ∧
      Settled (channel.handlePacket delegate packet) := by
  let ready := admitted channel delegate packet
  have view : inbound ready = receive (inbound channel) packet :=
    inbound_admitted channel delegate packet
  have received : ready.history.received = channel.history.received ++ [packet] :=
    congrArg Inbound.received view
  have ordered : InOrder (inbound ready) := by
    rw [view]
    exact inOrder_receive settled.ordered packet
  have room : Roomy (inbound ready) := by
    rw [view]
    exact roomy_receive settled.ordered settled.room timely.2
  have listed : Current ready.history.received ready.missing ∨ ready.inPacketBuffer.chain ≠ [] := by
    by_cases empty : ready.inPacketBuffer.chain = []
    · have unbuffered : (receive (inbound channel) packet).inPacketBuffer.chain = [] := by
        rw [← view]
        exact empty
      rw [received, missing_admitted]
      exact Or.inl (current_unmoved (unmoved_unbuffered settled.ordered unbuffered) settled.current)
    · exact Or.inr empty
  have sends := exact_deliver delegate _ ready rfl ordered room
  constructor
  · refine ⟨trivial, (along_append _ _ _).mpr ⟨sends_admitSteps timely settled, ?_⟩⟩
    rw [run_hear, unheard_admitSteps]
    simp only [annotate, hear, heardIn, List.append_nil, apply]
    rw [run_admitSteps, ← received]
    exact sends
  · have path := (handlePacket_delivers channel delegate packet).1
    rw [← view] at path
    obtain ⟨inOrder, roomy⟩ := roomy_delivers path ordered room
    refine ⟨inOrder, roomy, ?_⟩
    rw [received_handlePacket, ← received]
    exact current_deliver delegate _ ready rfl ordered room listed

/-! ## Runs -/

theorem calm_steps (channel : THReliableChannel) {event : Event}
    (other : ∀ delegate packet, event ≠ .handlePacket delegate packet) :
    ∀ primitive ∈ steps channel event, Calm primitive := by
  intro primitive member
  cases event with
  | handlePacket delegate packet => exact absurd rfl (other delegate packet)
  | sendPacket packet =>
      rw [List.mem_singleton.mp member]
      trivial
  | close delegate => exact calm_called (called_closeSteps channel delegate primitive member)
  | setState delegate state =>
      rcases List.mem_cons.mp member with rfl | calling
      · trivial
      · exact calm_called (called_callsSteps delegate _ _ primitive calling)
  | ackPing =>
      simp only [steps, pingSteps] at member
      split at member
      · rw [List.mem_singleton.mp member]
        trivial
      · cases member
  | flushOut =>
      rw [List.mem_singleton.mp member]
      trivial

theorem run_calm (channel : THReliableChannel) {primitives : List Primitive}
    (calm : ∀ primitive ∈ primitives, Calm primitive) :
    inbound (run apply channel primitives) = inbound channel ∧
      (run apply channel primitives).missing = channel.missing := by
  have kept : ∀ (reached : THReliableChannel) (primitive : Primitive), Calm primitive →
      inbound reached = inbound channel ∧ reached.missing = channel.missing →
      inbound (apply reached primitive) = inbound channel ∧
        (apply reached primitive).missing = channel.missing := by
    intro reached primitive calm same
    cases primitive with
    | send packet => simpa [apply] using same
    | become | deregister | flush => exact same
    | arrive | see | resend | clear | adopt | receive | enqueue | look | pop | process =>
        exact calm.elim
  exact run_invariant kept channel primitives ⟨rfl, rfl⟩ (along_of_forall channel primitives calm)

/-- Every event keeps its sends exact and the list current. -/
theorem exact_event {channel : THReliableChannel} {event : Event} (timely : Timely channel event)
    (settled : Settled channel) :
    Along (annotate hear apply) SendsExact ⟨channel, channel.history.received⟩
        (steps channel event) ∧
      channel.history.received ++ (steps channel event).flatMap heardIn =
        (step channel event).history.received ∧
      Settled (step channel event) := by
  by_cases arrival : ∃ delegate packet, event = .handlePacket delegate packet
  · obtain ⟨delegate, packet, rfl⟩ := arrival
    obtain ⟨sends, reached⟩ := exact_handle timely settled
    refine ⟨sends, ?_, reached⟩
    simp only [steps, handleSteps, List.flatMap_cons, List.flatMap_append, unheard_admitSteps,
      unheard_deliverSteps, heardIn, List.append_nil, step]
    exact (received_handlePacket channel delegate packet).symm
  · have calm := calm_steps channel fun delegate packet same => arrival ⟨delegate, packet, same⟩
    obtain ⟨view, kept⟩ := run_calm channel calm
    rw [run_steps] at view kept
    have received : (step channel event).history.received = channel.history.received :=
      congrArg Inbound.received view
    have silent : (steps channel event).flatMap heardIn = [] := by
      rw [List.flatMap_eq_nil_iff]
      intro primitive member
      have calm := calm primitive member
      cases primitive <;> trivial
    refine ⟨sends_calm calm settled.current, by rw [silent, List.append_nil, received], ?_, ?_, ?_⟩
    · rw [view]
      exact settled.ordered
    · rw [view]
      exact settled.room
    · rw [received, kept]
      exact settled.current

/-- In every run whose arrivals are timely, each packet a live channel sends,
from wherever it is sent, names exactly the numbers missing at that moment. -/
theorem miss_lists_exact (channelId : Nat) (events : List Event)
    (timely : Along step Timely (initToIdentity channelId) events) :
    Along (annotate hear apply) SendsExact ⟨initToIdentity channelId, []⟩
      (record (initToIdentity channelId) events) := by
  have start := settled_start channelId
  change Along (annotate hear apply) SendsExact
    ⟨initToIdentity channelId, (initToIdentity channelId).history.received⟩ _
  generalize initToIdentity channelId = channel at timely start
  induction events generalizing channel with
  | nil => trivial
  | cons event rest ih =>
      obtain ⟨sends, received, settled⟩ := exact_event timely.1 start
      refine (along_append _ _ _).mpr ⟨sends, ?_⟩
      rw [run_hear, run_steps, received]
      exact ih _ timely.2 settled

def answering : Delegate where
  didFailWithError _ := [.sendPacket .new]
  didChangeStateTo _ := []
  handlePacket _ := []

def failing (seq : Nat) : THPacket := (packetWithSeq seq).setObject (.string "gone") "err"

def lossy : List Event := [.setState .none .opened, .handlePacket answering (packetWithSeq 2)]

theorem miss_lists_exact_reordered :
    Along (annotate hear apply) SendsExact ⟨initToIdentity 1, []⟩
      (record (initToIdentity 1) (lossy ++ [arrival 0, arrival 1])) := by
  apply miss_lists_exact
  refine ⟨trivial, ⟨Or.inr (Or.inl ?_), by decide +kernel⟩, ⟨Or.inr (Or.inl ?_), by decide +kernel⟩,
    ⟨Or.inr (Or.inl ?_), by decide +kernel⟩, trivial⟩
  · intro err failed
    cases failed
  · intro _ _
    rfl
  · intro _ _
    rfl

/-- Packet 1 fails the channel while 0 and 1 are missing: what the delegate
sends then still asks for 1. -/
theorem error_answer_asks_again :
    ¬ Along (annotate hear apply) SendsExact ⟨initToIdentity 1, []⟩
      (record (initToIdentity 1) (lossy ++ [.handlePacket answering (failing 1)])) := by
  intro along
  have whole : record (initToIdentity 1) (lossy ++ [.handlePacket answering (failing 1)]) =
      record (initToIdentity 1) lossy ++ (.arrive (failing 1) :: .send .new ::
        (record (run step (initToIdentity 1) lossy)
          [.handlePacket answering (failing 1)]).drop 2) := by rfl
  rw [whole, along_append, run_hear] at along
  obtain ⟨_, _, sent, _⟩ := along
  obtain ⟨seqs, lists, field⟩ := sent (by decide +kernel) rfl
  have asked : (((run apply (initToIdentity 1) (record (initToIdentity 1) lossy)).outgoing
      .new).objectForKey "miss") = some (.array [.number 0, .number 1]) := by rfl
  have written := asked.symm.trans field
  have named : 1 ∈ seqs := by
    split at written
    · cases written
    · have listed : Json.number 1 ∈ seqs.map fun seq : Nat => Json.number seq := by
        rw [← Json.array.inj (Option.some.inj written)]
        simp
      obtain ⟨seq, inside, same⟩ := List.mem_map.mp listed
      have one : seq = 1 := by
        have same := Json.number.inj same
        omega
      exact one ▸ inside
  exact ((lists.2 1).mp named).2 ⟨failing 1, by simp [annotate, hear, heardIn], by decide +kernel⟩

end Telehash.MissLists
