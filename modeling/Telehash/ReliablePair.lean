import Telehash.PacketCodec
import Telehash.ReliableOutbound
import Telehash.TwoSided

/-!
Two reliable channels joined by a network. Whatever one end has handed to the
network may arrive at the other, at any time, any number of times, in any
order, or never. The run condition sends only that; all else each end and its
delegate are free to do.
-/

namespace Telehash.ReliablePair
open Foundation Packet PacketBuffer OrderedChain Channel ReliableChannel ReliableViews
open ReliableInbound ReliableOutbound Runs THReliableChannel TwoSided

abbrev Pair := Side → THReliableChannel

def joined (channelId : Nat) : Pair := fun _ => initToIdentity channelId

/-- What the other end reads off the wire: the JSON as sent, the body as sent
or empty. -/
def Carries (arrived sent : THPacket) : Prop :=
  arrived.json = sent.json ∧ arrived.body.getD [] = sent.body.getD []

/-- The codec delivers what it carries: for a packet with JSON that fits the
header, decoding the encoded packet gives a packet carrying it. -/
theorem carries_decoded (serialization : NSJSONSerialization) (stack : StackBytes)
    (sent arrived : THPacket) (json : JsonDictionary) (built : sent.json = some json)
    (filled : json.count ≠ 0) (unmarked : sent.jsonLength = 0)
    (fits : 2 ≤ (serialization.dataWithJSONObject json).length ∧
      (serialization.dataWithJSONObject json).length ≤ 65535)
    (parses : serialization.JSONObjectWithData (serialization.dataWithJSONObject json) =
      some (.dictionary json))
    (decoded : packetData serialization stack (encode serialization sent) = .ok (some arrived)) :
    Carries arrived sent := by
  rw [PacketCodec.encode_json serialization stack sent json built unmarked filled fits parses,
    PacketCodec.readBack] at decoded
  simp only [filled, ↓reduceIte, Except.ok.injEq, Option.some.injEq] at decoded
  subst decoded
  exact ⟨built.symm, rfl⟩

theorem carries_objectForKey {arrived sent : THPacket} (carries : Carries arrived sent)
    (key : String) : arrived.objectForKey key = sent.objectForKey key := by
  simp [THPacket.objectForKey, carries.1]

theorem carries_content {arrived sent : THPacket} (carries : Carries arrived sent) :
    SameContent arrived sent :=
  ⟨fun key _ => carries_objectForKey carries key, carries.2⟩

/-- Only what the other end transmitted arrives, and the state of a channel that
has ended or failed is not set again. The line does so for a channel whose very
first packet ends it; such a channel is left out. -/
def Possible (pair : Pair) (action : Action Event) : Prop :=
  match action.event with
  | .handlePacket _ packet =>
      ∃ sent ∈ (pair action.side.other).history.transmitted, Carries packet sent
  | .setState _ _ => ¬ (pair action.side).state.Halted
  | _ => True

structure Sound (pair : Pair) : Prop where
  ordered : ∀ side, InOrder (inbound (pair side))
  stamped : ∀ side, Stamped (outbound (pair side))
  heard : ∀ side, ∀ packet ∈ (pair side).history.received,
    ∃ sent ∈ (pair side.other).history.transmitted, Carries packet sent

theorem sound_start (channelId : Nat) : Sound (joined channelId) where
  ordered _ := inOrder_start channelId
  stamped _ := stamped_start channelId
  heard _ _ member := nomatch member

theorem delivered_grows (channel : THReliableChannel) (event : Event) :
    channel.history.delivered <+: (step channel event).history.delivered := by
  rcases inbound_step channel event with ⟨delegate, packet, rfl⟩ | same
  · have delivers := (handlePacket_delivers channel delegate packet).1
    have grows : ∀ before after, Relation.ReflTransGen Delivers before after →
        before.delivered <+: after.delivered := by
      intro before after path
      induction path with
      | refl => exact List.prefix_rfl
      | tail _ last ih =>
          cases last with
          | hand => exact ih.trans (List.prefix_append _ _)
    exact grows _ _ delivers
  · have view : (step channel event).history.delivered = channel.history.delivered :=
      congrArg Inbound.delivered same
    rw [view]

theorem sound_act (pair : Pair) (action : Action Event) (possible : Possible pair action)
    (sound : Sound pair) : Sound (act step pair action) := by
  obtain ⟨side, event⟩ := action
  have ordered := inOrder_step (pair side) event (sound.ordered side)
  have recorded := records_step (pair side) event (sound.ordered side)
  have allowed : NoRevival (pair side) event := by
    cases event with
    | setState delegate state => exact possible
    | _ => trivial
  have stamped := stamped_step (pair side) event (sound.ordered side) allowed (sound.stamped side)
  have acting : ∀ packet ∈ (step (pair side) event).history.received,
      ∃ sent ∈ (pair side.other).history.transmitted, Carries packet sent := by
    intro packet member
    rcases inbound_step (pair side) event with ⟨delegate, arriving, rfl⟩ | same
    · simp only [step, received_handlePacket] at member
      rcases List.mem_append.mp member with old | new
      · exact sound.heard side packet old
      · rw [List.mem_singleton.mp new]
        exact possible
    · have view : (step (pair side) event).history.received = (pair side).history.received :=
        congrArg Inbound.received same
      rw [view] at member
      exact sound.heard side packet member
  have watching : ∀ packet ∈ (pair side.other).history.received,
      ∃ sent ∈ (step (pair side) event).history.transmitted, Carries packet sent := by
    intro packet member
    obtain ⟨sent, transmitted, carries⟩ := sound.heard side.other packet member
    rw [other_other] at transmitted
    exact ⟨sent, recorded.transmitted.subset transmitted, carries⟩
  exact
    { ordered := each_side step (fun here _ => InOrder (inbound here)) ordered
        (sound.ordered side.other)
      stamped := each_side step (fun here _ => Stamped (outbound here)) stamped
        (sound.stamped side.other)
      heard := each_side step
        (fun here there => ∀ packet ∈ here.history.received,
          ∃ sent ∈ there.history.transmitted, Carries packet sent)
        acting watching }

theorem sound_run (channelId : Nat) (actions : List (Action Event))
    (possible : Along (act step) Possible (joined channelId) actions) :
    Sound (run (act step) (joined channelId) actions) :=
  run_invariant sound_act _ actions (sound_start channelId) possible

/-! ## In order and exactly once -/

/-- The delegate has been handed the numbers 0, 1, 2 and so on, each under the
first packet received with it. -/
structure InSequence (channel : THReliableChannel) : Prop where
  numbers : channel.history.delivered.map seqOf =
    (List.range channel.history.delivered.length).map some
  firsts : ∀ index (inside : index < channel.history.delivered.length),
    firstWith channel.history.received index =
      some (channel.history.delivered.get ⟨index, inside⟩)

/-- The packets handed over are, in order, the first of the content packets
passed to `sendPacket:` at the other end. -/
def DeliversPrefix (receiver sender : THReliableChannel) : Prop :=
  ∃ sentFirst, sentFirst <+: sender.history.passed ∧
    List.Forall₂ SameContent receiver.history.delivered sentFirst

theorem inSequence_of_ordered {channel : THReliableChannel}
    (ordered : InOrder (inbound channel)) : InSequence channel where
  numbers := by
    apply List.ext_getElem
    · simp
    · intro index below _
      have inside : index < channel.history.delivered.length := by simpa using below
      have found : seqOf (channel.history.delivered.get ⟨index, inside⟩) = some index :=
        firstWith_seq (ordered.delivered index inside)
      simpa using found
  firsts := ordered.delivered

theorem deliversPrefix_of_sound {pair : Pair} (sound : Sound pair) (side : Side)
    (room : (pair side.other).history.passed.length ≤ uintModulus) :
    DeliversPrefix (pair side) (pair side.other) := by
  have origin : ∀ index (inside : index < (pair side).history.delivered.length),
      ∃ original, (pair side.other).history.passed[index]? = some original ∧
        SameContent ((pair side).history.delivered.get ⟨index, inside⟩) original := by
    intro index inside
    have first := (sound.ordered side).delivered index inside
    obtain ⟨sent, transmitted, carries⟩ := sound.heard side _ (firstWith_mem first)
    have stampedSeq : seqOf sent = some index := by
      have arrivedSeq := firstWith_seq first
      unfold seqOf at arrivedSeq ⊢
      rw [← carries_objectForKey carries]
      exact arrivedSeq
    obtain ⟨original, found, same⟩ :=
      (sound.stamped side.other).content room sent (Or.inl transmitted) index stampedSeq
    exact ⟨original, found, sameContent_trans (carries_content carries) same⟩
  refine ⟨_, List.take_prefix (pair side).history.delivered.length _, ?_⟩
  have enough : (pair side).history.delivered.length ≤ (pair side.other).history.passed.length := by
    by_contra short
    obtain ⟨original, found, _⟩ :=
      origin (pair side.other).history.passed.length (by omega)
    have inside := (List.getElem?_eq_some_iff.mp found).1
    omega
  apply List.forall₂_iff_get.mpr
  refine ⟨by simp [enough], ?_⟩
  intro index inside below
  obtain ⟨original, found, same⟩ := origin index inside
  obtain ⟨_, value⟩ := List.getElem?_eq_some_iff.mp found
  simpa [value] using same

/-- One end alone, under any packets, calls and delegates, hands its delegate
the numbers from 0 on without gap or repetition; joined to another end it hands
over a prefix of what was passed there, as long as the numbers do not wrap. -/
theorem in_order_exactly_once (channelId : Nat) (events : List Event)
    (actions : List (Action Event))
    (possible : Along (act step) Possible (joined channelId) actions) :
    InSequence (run step (initToIdentity channelId) events) ∧
      ∀ side,
        (run (act step) (joined channelId) actions side.other).history.passed.length ≤ uintModulus →
        DeliversPrefix (run (act step) (joined channelId) actions side)
          (run (act step) (joined channelId) actions side.other) := by
  have sound := sound_run channelId actions possible
  exact ⟨inSequence_of_ordered (inOrder_run channelId events),
    fun side room => deliversPrefix_of_sound sound side room⟩

def hello : THPacket := THPacket.new.setObject (.string "hello") "msg"

/-- The first content packet of a fresh end, as it goes out: number 0, and an
acknowledgement of 0 although nothing was processed. -/
def firstHello : THPacket := (initToIdentity 1).outgoing hello

def opens (side : Side) : Action Event := ⟨side, .setState .none .opened⟩

def sends (side : Side) (packet : THPacket) : Action Event := ⟨side, .sendPacket packet⟩

def hears (side : Side) (packet : THPacket) : Action Event := ⟨side, .handlePacket .none packet⟩

def oneHello : List (Action Event) := [opens .near, sends .near hello, hears .far firstHello]

theorem oneHello_possible : Along (act step) Possible (joined 1) oneHello := by
  refine ⟨?_, trivial, ⟨firstHello, ?_, rfl, rfl⟩, trivial⟩
  · show ¬ THChannelState.Halted .opening
    decide
  · exact List.mem_cons_self

theorem in_order_exactly_once_hello :
    InSequence (run step (initToIdentity 1) [arrival 1, arrival 0, arrival 0]) ∧
      DeliversPrefix (run (act step) (joined 1) oneHello .far)
        (run (act step) (joined 1) oneHello .near) := by
  have both := in_order_exactly_once 1 [arrival 1, arrival 0, arrival 0] oneHello oneHello_possible
  exact ⟨both.1, both.2 .far (by decide)⟩

/-! ## Nothing forgotten -/

/-- A numbered packet has left the out buffer only if the other end has handed
its number to the delegate. -/
def Remembered (pair : Pair) : Prop :=
  ∀ side, ∀ packet ∈ (pair side).history.numbered, ∀ seq, seqOf packet = some seq →
    seq ∉ (pair side).outPacketBuffer.seqs →
    ∃ handed ∈ (pair side.other).history.delivered, seqOf handed = some seq

/-- An acknowledgement of 0 may arrive at an end that still holds its packet 0
only once the other end has handed that packet over. Before that it may not
come with an error either, since the delegate told of it may send packet 0. -/
def AckOfDelivered (pair : Pair) (action : Action Event) : Prop :=
  match action.event with
  | .handlePacket _ packet =>
      ackOf packet = some 0 →
        (pair action.side.other).history.delivered ≠ [] ∨
          (0 ∉ (pair action.side).outPacketBuffer.seqs ∧ packet.objectForKey "err" = none)
  | _ => True

structure Retained (pair : Pair) : Prop where
  sound : Sound pair
  retains : ∀ side, Retains (pair side.other).history.delivered.length (outbound (pair side))

theorem retained_start (channelId : Nat) : Retained (joined channelId) where
  sound := sound_start channelId
  retains _ := ⟨ascending_nil, List.forall_mem_nil _⟩

theorem ack_below {pair : Pair} (sound : Sound pair) (side : Side) {packet : THPacket} {ack : Nat}
    (arrives : ∃ sent ∈ (pair side.other).history.transmitted, Carries packet sent)
    (found : ackOf packet = some ack) :
    ack ≤ (pair side.other).history.delivered.length - 1 := by
  obtain ⟨sent, transmitted, carries⟩ := arrives
  have stamped : ackOf sent = some ack := by
    unfold ackOf at found ⊢
    rw [← carries_objectForKey carries]
    exact found
  have bound := (sound.stamped side.other).acks sent (Or.inl transmitted) ack stamped
  exact Nat.le_trans bound (Nat.le_of_eq (sound.ordered side.other).last)

/-- At the acting end: what an acknowledgement clears has been handed over. -/
theorem retains_acting (pair : Pair) (side : Side) (event : Event)
    (possible : Possible pair ⟨side, event⟩) (covered : AckOfDelivered pair ⟨side, event⟩)
    (retained : Retained pair) :
    Retains (pair side.other).history.delivered.length (outbound (step (pair side) event)) := by
  have start := retained.retains side
  have outward := retains_outward (pair side.other).history.delivered.length
  refine outward_step outward (pair side) event (retained.sound.ordered side) start ?_ ?_
  · rintro delegate packet rfl
    rcases Nat.eq_zero_or_pos (pair side.other).history.delivered.length with none | some
    · -- Nothing was handed over yet, so the only number acknowledged is 0.
      unfold beforeAdmission handleAck
      split
      · exact outward_handleMiss outward (pair side) delegate packet start
      · rename_i ack found
        have zero := ack_below retained.sound side possible found
        rw [none] at zero
        have same : ack = 0 := by omega
        subst same
        rcases covered found with handed | ⟨absent, plain⟩
        · exact absurd (List.length_eq_zero_iff.mp none) handed
        · have missed := outward_handleMiss outward (pair side) delegate packet start
          have seqs : ((((pair side).superHandlePacket delegate packet).sawSeq
              packet).handleMiss packet).outPacketBuffer.seqs =
                (pair side).outPacketBuffer.seqs := by
            unfold handleMiss superHandlePacket
            rw [plain]
            split
            · rfl
            · exact seqs_mutateMissed _ _ _
          refine retains_clear missed fun seq member low => ?_
          have first : seq = 0 := by omega
          rw [first] at member
          exact absurd (seqs ▸ member) absent
    · refine outward_beforeAdmission outward (pair side) delegate packet start
        fun view ack found kept => retains_clear kept fun seq _ low => ?_
      have below := ack_below retained.sound side possible found
      omega
  · rintro delegate state rfl
    exact ⟨start.sorted, start.kept⟩

theorem retained_act (pair : Pair) (action : Action Event)
    (condition : Possible pair action ∧ AckOfDelivered pair action) (retained : Retained pair) :
    Retained (act step pair action) := by
  obtain ⟨side, event⟩ := action
  have watching : Retains (step (pair side) event).history.delivered.length
      (outbound (pair side.other)) := by
    have before := retained.retains side.other
    rw [other_other] at before
    exact retains_mono (delivered_grows (pair side) event).length_le before
  exact
    { sound := sound_act pair ⟨side, event⟩ condition.1 retained.sound
      retains := each_side step
        (fun here there => Retains there.history.delivered.length (outbound here))
        (retains_acting pair side event condition.1 condition.2 retained) watching }

theorem remembered_of_retained {pair : Pair} (retained : Retained pair) : Remembered pair := by
  intro side packet member seq numbered gone
  rcases (retained.retains side).kept packet member seq numbered with held | below
  · exact absurd held gone
  · exact delivered_mem (retained.sound.ordered side.other) below

/-- In every run whose acknowledgements of 0 come after packet 0 was handed
over, no packet is forgotten early in any state on the way. -/
theorem nothing_forgotten (channelId : Nat) (actions : List (Action Event))
    (possible : Along (act step) Possible (joined channelId) actions)
    (covered : Along (act step) AckOfDelivered (joined channelId) actions) :
    Throughout (act step) Remembered (joined channelId) actions := by
  have both := (along_and (joined channelId) actions).mpr ⟨possible, covered⟩
  have retained := throughout_invariant retained_act _ actions (retained_start channelId) both
  exact throughout_mono (fun _ => remembered_of_retained) _ actions retained

/-- The far end answers the hello and acknowledges it. -/
def answered : List (Action Event) :=
  oneHello ++ [opens .far, sends .far hello,
    hears .near ((run (act step) (joined 1) oneHello .far).outgoing hello)]

theorem nothing_forgotten_answered : Throughout (act step) Remembered (joined 1) answered := by
  refine nothing_forgotten 1 answered ?_ ?_
  · refine (along_append _ oneHello _).mpr
      ⟨oneHello_possible, ?_, trivial, ⟨_, ?_, rfl, rfl⟩, trivial⟩
    · show ¬ THChannelState.Halted .opening
      decide
    · exact List.mem_cons_self
  · exact ⟨trivial, trivial, fun _ => Or.inr ⟨by decide, rfl⟩, trivial, trivial,
      fun _ => Or.inl (by intro none; cases none), trivial⟩

/-- Both ends speak before they hear each other: the first packet of the far
end acknowledges 0, and the near end forgets a packet the far end never got. -/
def crossed : List (Action Event) :=
  [opens .near, sends .near hello, opens .far, sends .far hello, hears .near firstHello]

theorem crossed_hellos_forget :
    Along (act step) Possible (joined 1) crossed ∧
      ¬ Throughout (act step) Remembered (joined 1) crossed := by
  refine ⟨⟨?_, trivial, ?_, trivial, ⟨firstHello, ?_, rfl, rfl⟩, trivial⟩, fun remembered => ?_⟩
  · show ¬ THChannelState.Halted .opening
    decide
  · show ¬ THChannelState.Halted .opening
    decide
  · exact List.mem_cons_self
  · have last := (throughout_iff _ _).mp remembered crossed List.prefix_rfl
    have numbered : seqOf firstHello = some 0 := by decide
    have gone : 0 ∉ (run (act step) (joined 1) crossed .near).outPacketBuffer.seqs := by decide
    obtain ⟨handed, member, _⟩ := last .near firstHello List.mem_cons_self 0 numbered gone
    cases member

end Telehash.ReliablePair
