import Telehash.ReliableSteps
import Mathlib.Data.Fintype.Card

/-!
The sending window of a reliable channel: which number a packet goes out with,
which numbers wait for an acknowledgement, and what a `miss` list brings back.
-/

namespace Telehash.SenderWindow
open Foundation Packet PacketBuffer OrderedChain Channel ReliableChannel ReliableViews
open ReliableInbound ReliableOutbound ReliableSteps THReliableChannel Runs

/-- As `init` leaves it, the fields of the channel not set by the caller. -/
structure Built (packet : THPacket) : Prop where
  json : packet.json.isSome
  seq : packet.objectForKey "seq" = none
  miss : packet.objectForKey "miss" = none

/-- Objects of their own, each at an address of its own. -/
def DistinctObjects (packets : List THPacket) : Prop :=
  ∃ address : Fin packets.length → Fin uintModulus, Function.Injective address

theorem distinct_bounded {packets : List THPacket} (distinct : DistinctObjects packets) :
    packets.length ≤ uintModulus := by
  obtain ⟨address, injective⟩ := distinct
  have bound := Fintype.card_le_of_injective address injective
  simpa only [Fintype.card_fin] using bound

/-- The buffered numbers are an interval; unless it is empty it ends just below
`sequence`. -/
def Window (channel : THReliableChannel) : Prop :=
  ∃ low count, channel.outPacketBuffer.seqs = List.range' low count ∧
    (0 < count → (low + count) % uintModulus = channel.sequence)

/-- Content takes the number of packets with content passed before it and is
buffered under that number; any other packet takes none. -/
structure Numbers (channel : THReliableChannel) (packet : THPacket) : Prop where
  content : isContent packet = true →
    (channel.outgoing packet).objectForKey "seq" = some (.number channel.history.passed.length) ∧
      (channel.sendPacket packet).outPacketBuffer.chain =
        channel.outPacketBuffer.chain ++
          [⟨channel.outgoing packet, channel.history.passed.length⟩]
  bare : isContent packet = false →
    (channel.outgoing packet).objectForKey "seq" = none ∧
      (channel.sendPacket packet).outPacketBuffer = channel.outPacketBuffer

/-- The list has the number among its items. -/
def Names (miss : Json) (seq : Nat) : Prop := .number seq ∈ miss.arrayItems

/-- A packet sent again: the buffered one, but for its `miss`. -/
structure Again (passed : List THPacket) (node : THPacketNode) (packet : THPacket) : Prop where
  numbered : packet.objectForKey "seq" = some (.number node.seq)
  others : ∀ key, key ≠ "miss" → packet.objectForKey key = node.packet.objectForKey key
  body : packet.body = node.packet.body
  missless : packet.objectForKey "miss" = none
  original : ∃ content, passed[node.seq]? = some content ∧ SameContent packet content

/-- A `miss` list brings back the buffered packets it names, and nothing else,
each once and in ascending order. -/
def Answers (channel : THReliableChannel) (miss : Json) : Prop :=
  ∃ nodes packets, (apply channel (.resend miss)).history.transmitted =
      channel.history.transmitted ++ packets ∧
    List.Forall₂ (Again channel.history.passed) nodes packets ∧
    Ascending THPacketNode.seq nodes ∧
    ∀ node, node ∈ nodes ↔ node ∈ channel.outPacketBuffer.chain ∧ Names miss node.seq

def WindowStep (channel : THReliableChannel) : Primitive → Prop
  | .send packet => ¬ channel.state.Halted → Numbers channel packet
  | .resend miss => channel.state = .opened → Answers channel miss
  | _ => True

/-! ## The invariant -/

/-- Each buffered packet bears its number as the object the channel wrote. -/
def Filed (node : THPacketNode) : Prop :=
  node.packet.objectForKey "seq" = some (.number node.seq) ∧ node.seq < uintModulus

/-- `next` packets took a number so far, the last of them from `low` on are buffered. -/
structure Windowed (view : Outbound) : Prop where
  filed : ∀ node ∈ view.outPacketBuffer.chain, Filed node
  interval : ∃ low next, low ≤ next ∧ (¬ view.state.Halted → next = view.passed.length) ∧
    view.sequence = next % uintModulus ∧
    view.outPacketBuffer.seqs = List.range' low (next - low)

theorem windowed_start (channelId : Nat) : Windowed (outbound (initToIdentity channelId)) where
  filed := List.forall_mem_nil _
  interval := ⟨0, 0, Nat.le_refl _, fun _ => rfl, rfl, rfl⟩

theorem windowed_sorted {view : Outbound} (windowed : Windowed view) :
    Sorted view.outPacketBuffer := by
  obtain ⟨low, next, _, _, _, seqs⟩ := windowed.interval
  have ordered : view.outPacketBuffer.seqs.Pairwise (· < ·) := by
    rw [seqs]
    exact List.pairwise_lt_range'
  exact List.pairwise_map.mp ordered

/-- A send on a live channel in its window, before the numbers run out. -/
theorem numbers_send {channel : THReliableChannel} {packet : THPacket}
    (windowed : Windowed (outbound channel)) (built : Built packet)
    (alive : ¬ channel.state.Halted)
    (room : (channel.sendPacket packet).history.passed.length ≤ uintModulus) :
    Numbers channel packet := by
  have sent := outbound_sendPacket alive packet
  have passed := congrArg Outbound.passed sent
  have buffer := congrArg Outbound.outPacketBuffer sent
  obtain ⟨low, next, below, counted, current, seqs⟩ := windowed.interval
  have counted : next = channel.history.passed.length := counted alive
  constructor
  · intro content
    simp only [outbound, content, ↓reduceIte] at passed
    rw [passed, List.length_append, List.length_singleton] at room
    have number : channel.sequence = channel.history.passed.length := by
      rw [show channel.sequence = next % uintModulus from current, counted,
        Nat.mod_eq_of_lt (by omega)]
    have stamped : (channel.outgoing packet).objectForKey "seq" = some (.number channel.sequence) :=
      outgoing_seqObject built.json content
    have read : seqOf (channel.outgoing packet) = some channel.sequence :=
      outgoing_content_seq built.json content (by omega)
    rw [number] at stamped read
    refine ⟨stamped, ?_⟩
    simp only [outbound, read, Option.isSome_some, ↓reduceIte] at buffer
    have sorted : Sorted channel.outPacketBuffer := windowed_sorted windowed
    rw [buffer, push_eq _ _ sorted, nodeWithPacket_seq read]
    apply insertAbsent_above
    intro node member
    have inside : node.seq ∈ channel.outPacketBuffer.seqs := List.mem_map_of_mem member
    rw [show channel.outPacketBuffer.seqs = List.range' low (next - low) from seqs,
      List.mem_range'_1] at inside
    change node.seq < channel.history.passed.length
    omega
  · intro bare
    have none : (channel.outgoing packet).objectForKey "seq" = none :=
      Option.map_eq_none_iff.mp (outgoing_bare_seq bare)
    refine ⟨none, ?_⟩
    simpa [outbound, seqOf, none] using buffer

theorem windowed_send {channel : THReliableChannel} {packet : THPacket}
    (windowed : Windowed (outbound channel)) (built : Built packet)
    (room : (channel.sendPacket packet).history.passed.length ≤ uintModulus) :
    Windowed (outbound (channel.sendPacket packet)) := by
  by_cases halted : channel.state.Halted
  · rw [outbound_sendPacket_halted halted]
    obtain ⟨low, next, below, _, current, seqs⟩ := windowed.interval
    exact ⟨windowed.filed, low, next, below, fun alive => absurd halted alive, current, seqs⟩
  · have numbers := numbers_send windowed built halted room
    have sent := outbound_sendPacket halted packet
    obtain ⟨low, next, below, counted, current, seqs⟩ := windowed.interval
    have counted : next = channel.history.passed.length := counted halted
    cases content : isContent packet with
    | true =>
        obtain ⟨stamped, chain⟩ := numbers.content content
        have passed := congrArg Outbound.passed sent
        have sequence := congrArg Outbound.sequence sent
        simp only [outbound, content, ↓reduceIte] at passed sequence
        rw [passed, List.length_append, List.length_singleton] at room
        refine ⟨?_, low, next + 1, by omega, ?_, ?_, ?_⟩
        · intro node member
          rcases List.mem_append.mp (chain ▸ member) with old | new
          · exact windowed.filed node old
          · rw [List.mem_singleton.mp new]
            exact ⟨stamped, by change channel.history.passed.length < uintModulus; omega⟩
        · intro _
          simp [outbound, passed, counted]
        · simp only [outbound, sequence]
          rw [show channel.sequence = next % uintModulus from current]
          simp
        · have extended : next + 1 - low = next - low + 1 := by omega
          have last : channel.history.passed.length = low + (next - low) := by omega
          have seqs : channel.outPacketBuffer.chain.map THPacketNode.seq =
              List.range' low (next - low) := seqs
          simp only [outbound, THPacketBuffer.seqs, chain, List.map_append, seqs, List.map_cons,
            List.map_nil, extended, List.range'_1_concat, last]
    | false =>
        obtain ⟨_, buffer⟩ := numbers.bare content
        have passed := congrArg Outbound.passed sent
        have sequence := congrArg Outbound.sequence sent
        simp only [outbound, content, Bool.false_eq_true, ↓reduceIte, List.append_nil]
          at passed sequence
        refine ⟨?_, low, next, below, ?_, ?_, ?_⟩
        · simp only [outbound, buffer]
          exact windowed.filed
        · intro _
          simp only [outbound, passed]
          exact counted
        · simp only [outbound, sequence]
          exact current
        · simp only [outbound, buffer]
          exact seqs

theorem windowed_resend {channel : THReliableChannel} (miss : Json)
    (windowed : Windowed (outbound channel)) :
    Windowed (outbound (channel.resendMissingPackets miss)) := by
  constructor
  · intro node member
    obtain ⟨old, inside, rfl⟩ := List.mem_map.mp member
    have filed := windowed.filed old inside
    split
    · refine ⟨?_, filed.2⟩
      simp only [withoutMiss]
      rw [objectForKey_removeObject_other _ _ _ (by decide), filed.1]
    · exact filed
  · obtain ⟨low, next, below, counted, current, seqs⟩ := windowed.interval
    refine ⟨low, next, below, counted, current, ?_⟩
    simp only [outbound, resendMissingPackets, seqs_mutateMissed]
    exact seqs

theorem windowed_clear {channel : THReliableChannel} (ack : Nat)
    (windowed : Windowed (outbound channel)) :
    Windowed (outbound (clear channel ack)) := by
  have sorted : Sorted channel.outPacketBuffer := windowed_sorted windowed
  constructor
  · intro node member
    exact windowed.filed node ((mem_clearThrough sorted ack node).mp member).1
  · obtain ⟨low, next, below, counted, current, seqs⟩ := windowed.interval
    have cut : (clear channel ack).outPacketBuffer.seqs =
        List.range' (max low (ack + 1)) (low + (next - low) - max low (ack + 1)) := by
      rw [← dropWhile_range', ← show channel.outPacketBuffer.seqs = _ from seqs]
      simp only [clear, THPacketBuffer.clearThrough, THPacketBuffer.seqs, List.dropWhile_map]
      rfl
    by_cases inside : max low (ack + 1) ≤ next
    · refine ⟨max low (ack + 1), next, inside, counted, current, ?_⟩
      simp only [outbound, cut]
      congr 1
      omega
    · -- an acknowledgement from the future takes everything out
      refine ⟨next, next, Nat.le_refl _, counted, current, ?_⟩
      have none : low + (next - low) - max low (ack + 1) = 0 := by omega
      simp [outbound, cut, none]

/-- What a step must bring along for the window to survive it. -/
structure Fits (channel : THReliableChannel) (primitive : Primitive) : Prop where
  orderly : Orderly channel primitive
  lasting : Lasting channel primitive
  built : ∀ packet, primitive = .send packet → Built packet
  room : (apply channel primitive).history.passed.length ≤ uintModulus

theorem windowed_apply {channel : THReliableChannel} {primitive : Primitive}
    (fits : Fits channel primitive) (windowed : Windowed (outbound channel)) :
    Windowed (outbound (apply channel primitive)) := by
  cases primitive with
  | send packet => exact windowed_send windowed (fits.built packet rfl) fits.room
  | resend miss => exact windowed_resend miss windowed
  | clear ack => exact windowed_clear ack windowed
  | become state =>
      obtain ⟨low, next, below, counted, current, seqs⟩ := windowed.interval
      -- a channel that is alive afterwards was alive before
      refine ⟨windowed.filed, low, next, below, fun alive => counted ?_, current, seqs⟩
      exact fun halted => alive (fits.lasting halted)
  | enqueue packet =>
      obtain ⟨_, changed⟩ := enqueue_eq channel packet
      simp only [apply, changed]
      exact windowed
  | process packet =>
      obtain ⟨_, _, changed⟩ := noteProcessed_eq channel packet
      simp only [apply, changed]
      exact ⟨windowed.filed, windowed.interval⟩
  | flush => exact ⟨windowed.filed, windowed.interval⟩
  | arrive | deregister | see | adopt | receive | look | pop => exact windowed

/-! ## What the window shows -/

theorem window_of_windowed {channel : THReliableChannel}
    (windowed : Windowed (outbound channel)) : Window channel := by
  obtain ⟨low, next, below, _, current, seqs⟩ := windowed.interval
  refine ⟨low, next - low, seqs, fun _ => ?_⟩
  have whole : low + (next - low) = next := by omega
  rw [whole]
  exact current.symm

theorem missed_iff {miss : Json} {node : THPacketNode} :
    missed miss node = true ↔ Names miss node.seq := by
  unfold missed Names
  rw [List.any_eq_true]
  constructor
  · rintro ⟨item, member, same⟩
    split at same
    · rename_i value
      have same : value = (node.seq : Int) := by simpa using same
      exact same ▸ member
    · cases same
  · intro member
    exact ⟨_, member, by simp⟩

theorem again_resent {channel : THReliableChannel} (windowed : Windowed (outbound channel))
    (stamped : Stamped (outbound channel)) (room : channel.history.passed.length ≤ uintModulus)
    {node : THPacketNode} (member : node ∈ channel.outPacketBuffer.chain) :
    Again channel.history.passed node (withoutMiss node.packet) := by
  obtain ⟨numbered, small⟩ := windowed.filed node member
  have read : seqOf node.packet = some node.seq := by
    simp only [seqOf, numbered, Option.map_some]
    rw [unsignedIntegerValue_natural node.seq small]
  obtain ⟨original, found, same⟩ :=
    stamped.content room node.packet (Or.inr ⟨node, member, rfl⟩) node.seq read
  refine ⟨?_, ?_, rfl, ?_, original, found, sameContent_trans (withoutMiss_content _) same⟩
  · rw [withoutMiss, objectForKey_removeObject_other _ _ _ (by decide), numbered]
  · intro key different
    exact objectForKey_removeObject_other _ _ _ different
  · exact objectForKey_removeObject_same _ _

theorem answers_resend {channel : THReliableChannel} (windowed : Windowed (outbound channel))
    (stamped : Stamped (outbound channel)) (room : channel.history.passed.length ≤ uintModulus)
    (opened_ : channel.state = .opened) (miss : Json) : Answers channel miss := by
  refine ⟨channel.outPacketBuffer.chain.filter (missed miss),
    (channel.outPacketBuffer.packetsForMiss miss).map withoutMiss, ?_, ?_, ?_, ?_⟩
  · simp [apply, resendMissingPackets, opened_]
  · rw [THPacketBuffer.packetsForMiss, List.map_map, List.forall₂_map_right_iff,
      List.forall₂_same]
    intro node member
    exact again_resent windowed stamped room (List.mem_filter.mp member).1
  · exact (windowed_sorted windowed).sublist List.filter_sublist
  · intro node
    rw [List.mem_filter, missed_iff]

theorem fits_record {channel : THReliableChannel} {events : List Event}
    (ordered : InOrder (inbound channel)) (lasting : Along step NoRevival channel events)
    (built : ∀ packet, .send packet ∈ record channel events → Built packet)
    (room : (run step channel events).history.passed.length ≤ uintModulus) :
    Along apply Fits channel (record channel events) := by
  rw [← run_record] at room
  have builds : Along apply (fun _ primitive => ∀ packet, primitive = .send packet → Built packet)
      channel (record channel events) := by
    apply along_everywhere
    rintro _ member _ packet rfl
    exact built packet member
  have all := (along_and _ _).mpr ⟨orderly_record channel events ordered,
    (along_and _ _).mpr ⟨lasting_record channel events lasting,
      (along_and _ _).mpr ⟨builds, along_bounded passed_grows channel _ room⟩⟩⟩
  exact along_mono (fun _ _ ⟨orderly, lasting, built, room⟩ => ⟨orderly, lasting, built, room⟩)
    channel _ all

theorem windowStep_of_fits {channel : THReliableChannel} {primitive : Primitive}
    (fits : Fits channel primitive)
    (holds : Windowed (outbound channel) ∧ Stamped (outbound channel)) :
    WindowStep channel primitive := by
  cases primitive with
  | send packet =>
      exact fun alive => numbers_send holds.1 (fits.built packet rfl) alive fits.room
  | resend miss => exact fun opened_ => answers_resend holds.1 holds.2 fits.room opened_ miss
  | arrive | become | deregister | see | clear | adopt | receive | enqueue | look | pop | process
  | flush => trivial

/-- In every run of a channel that is not revived, with packets built by `init`
that are objects of their own: what each `sendPacket:` and each `miss` list
does, and the interval of buffered numbers after every step. -/
theorem sender_window (channelId : Nat) (events : List Event)
    (lasting : Along step NoRevival (initToIdentity channelId) events)
    (built : ∀ packet, .send packet ∈ record (initToIdentity channelId) events → Built packet)
    (distinct : DistinctObjects (run step (initToIdentity channelId) events).history.passed) :
    Along apply WindowStep (initToIdentity channelId) (record (initToIdentity channelId) events) ∧
      Throughout apply Window (initToIdentity channelId)
        (record (initToIdentity channelId) events) := by
  have fits := fits_record (inOrder_start channelId) lasting built (distinct_bounded distinct)
  have start : Windowed (outbound (initToIdentity channelId)) ∧
      Stamped (outbound (initToIdentity channelId)) :=
    ⟨windowed_start channelId, stamped_start channelId⟩
  have kept : ∀ channel primitive, Fits channel primitive →
      Windowed (outbound channel) ∧ Stamped (outbound channel) →
      Windowed (outbound (apply channel primitive)) ∧
        Stamped (outbound (apply channel primitive)) := fun channel primitive fits holds =>
    ⟨windowed_apply fits holds.1, stamped_apply channel primitive fits.orderly fits.lasting holds.2⟩
  constructor
  · exact along_invariant kept (fun _ _ => windowStep_of_fits) _ _ start fits
  · exact throughout_mono (fun _ holds => window_of_windowed holds.1) _ _
      (throughout_invariant kept _ _ start fits)

def text (body : Data) : THPacket := { THPacket.new with body := some body }

def asking (missing : List Nat) : THPacket :=
  THPacket.new.setObject (.array (missing.map fun seq => .number seq)) "miss"

def lossyRun : List Event :=
  [.setState .none .opened, .sendPacket (text [104, 105]), .sendPacket .new,
    .sendPacket (text [104, 111]), .handlePacket .none (asking [1, 0])]

theorem sender_window_two_lost :
    (run step (initToIdentity 1) lossyRun).history.transmitted.map seqOf =
        [some 0, none, some 1, some 0, some 1] ∧
      Along apply WindowStep (initToIdentity 1) (record (initToIdentity 1) lossyRun) ∧
      Throughout apply Window (initToIdentity 1) (record (initToIdentity 1) lossyRun) := by
  refine ⟨by decide +kernel, sender_window 1 lossyRun ?_ ?_ ?_⟩
  · have fresh : ¬ (initToIdentity 1).state.Halted := by decide
    exact ⟨fresh, trivial, trivial, trivial, trivial, trivial⟩
  · intro packet member
    have sends : record (initToIdentity 1) lossyRun =
        [.become .opened, .send (text [104, 105]), .send .new, .send (text [104, 111]),
          .arrive (asking [1, 0]), .see (asking [1, 0]),
          .resend (.array [.number 1, .number 0]), .adopt (asking [1, 0]),
          .receive (asking [1, 0]), .enqueue (asking [1, 0])] := by rfl
    simp only [sends, List.mem_cons, reduceCtorEq, List.not_mem_nil, Primitive.send.injEq,
      or_false, false_or] at member
    rcases member with rfl | rfl | rfl <;> exact ⟨by decide, by decide, by decide⟩
  · have passed : (run step (initToIdentity 1) lossyRun).history.passed.length = 2 := by
      decide +kernel
    refine ⟨fun place => ⟨place.val, ?_⟩, fun left right same => ?_⟩
    · have := place.isLt
      simp only [uintModulus]
      omega
    · exact Fin.ext (by simpa using congrArg Fin.val same)

end Telehash.SenderWindow
