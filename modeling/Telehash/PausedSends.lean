import Telehash.ReliableSteps

/-!
Sending while a reliable channel is not open. Every content packet that
`sendPacket:` accepts gets an entry, which an acknowledgement or the packet's
way to `toIdentity` marks. What was accepted outside the Open state waits until
it is acknowledged or `flushOut` runs: opening the channel sends nothing.
-/

namespace Telehash.PausedSends
open Foundation Packet PacketBuffer OrderedChain Channel ReliableChannel ReliableViews
open ReliableInbound ReliableOutbound ReliableSteps THReliableChannel Runs

structure Entry where
  number : Nat
  acknowledged : Bool
  handed : Bool
  deriving DecidableEq

structure Ledger where
  entries : List Entry
  -- numbers accepted outside the Open state, not flushed or acknowledged since
  waiting : List Nat

def Entry.acknowledge (ack : Nat) (entry : Entry) : Entry :=
  { entry with acknowledged := entry.acknowledged || entry.number ≤ ack }

def Entry.handOn (packets : List THPacket) (entry : Entry) : Entry :=
  { entry with handed := entry.handed || (packets.filterMap seqOf).contains entry.number }

def Accepts (channel : THReliableChannel) (packet : THPacket) : Prop :=
  ¬ channel.state.Halted ∧ isContent packet = true

instance (channel : THReliableChannel) (packet : THPacket) :
    Decidable (Accepts channel packet) := by
  unfold Accepts; infer_instance

def enter (ledger : Ledger) (channel : THReliableChannel) (primitive : Primitive) : Ledger :=
  let packets := handedOn channel (apply channel primitive)
  match primitive with
  | .send packet =>
      if Accepts channel packet then
        { entries := ledger.entries ++ [⟨channel.sequence, false, !packets.isEmpty⟩]
          waiting :=
            if channel.state = .opened then ledger.waiting
            else ledger.waiting ++ [channel.sequence] }
      else ledger
  | .clear ack =>
      { entries := ledger.entries.map (Entry.acknowledge ack)
        waiting := ledger.waiting.filter fun number => ack < number }
  | .flush => { entries := ledger.entries.map (Entry.handOn packets), waiting := [] }
  | .resend _ => { ledger with entries := ledger.entries.map (Entry.handOn packets) }
  | _ => ledger

/-- An open channel has handed on every packet that is not acknowledged. -/
def Lossless (noted : Noted THReliableChannel Ledger) : Prop :=
  noted.state.state = .opened →
    ∀ entry ∈ noted.note.entries, entry.acknowledged = false → entry.handed = true

/-- The channel opens only when nothing waits. -/
def Resumes (noted : Noted THReliableChannel Ledger) : Primitive → Prop
  | .become .opened => noted.note.waiting = []
  | _ => True

/-! ## The invariant -/

structure Kept (noted : Noted THReliableChannel Ledger) : Prop where
  small : noted.state.sequence < uintModulus
  sorted : Sorted noted.state.outPacketBuffer
  filed : ∀ node ∈ noted.state.outPacketBuffer.chain, seqOf node.packet = some node.seq
  held : ∀ entry ∈ noted.note.entries, entry.acknowledged = false →
    entry.number ∈ noted.state.outPacketBuffer.seqs
  waits : ∀ entry ∈ noted.note.entries, entry.acknowledged = false → entry.handed = false →
    entry.number ∈ noted.note.waiting
  owed : ∀ number ∈ noted.note.waiting, ∃ entry ∈ noted.note.entries,
    entry.number = number ∧ entry.acknowledged = false ∧ entry.handed = false
  idle : noted.state.state = .opened → noted.note.waiting = []

theorem kept_start (channelId : Nat) : Kept ⟨initToIdentity channelId, ⟨[], []⟩⟩ where
  small := Nat.two_pow_pos 64
  sorted := ascending_nil
  filed := List.forall_mem_nil _
  held := List.forall_mem_nil _
  waits := List.forall_mem_nil _
  owed := List.forall_mem_nil _
  idle open_ := by cases open_

theorem lossless_of_kept {noted : Noted THReliableChannel Ledger} (kept : Kept noted) :
    Lossless noted := by
  intro open_ entry member unacknowledged
  cases handed : entry.handed with
  | true => rfl
  | false =>
      have waits := kept.waits entry member unacknowledged handed
      rw [kept.idle open_] at waits
      cases waits

/-- Opening is harmless exactly when nothing waits. -/
theorem opens_lossless_iff {noted : Noted THReliableChannel Ledger} (kept : Kept noted) :
    Lossless (annotate enter apply noted (.become .opened)) ↔ noted.note.waiting = [] := by
  constructor
  · intro lossless
    cases waiting : noted.note.waiting with
    | nil => rfl
    | cons number rest =>
        obtain ⟨entry, member, _, unacknowledged, unhanded⟩ :=
          kept.owed number (by simp [waiting])
        have handed := lossless rfl entry member unacknowledged
        rw [unhanded] at handed
        cases handed
  · intro none _ entry member unacknowledged
    cases handed : entry.handed with
    | true => rfl
    | false =>
        have waits := kept.waits entry member unacknowledged handed
        rw [none] at waits
        cases waits

/-! ## The steps -/

theorem kept_become {noted : Noted THReliableChannel Ledger} (kept : Kept noted)
    (state : THChannelState) (resumes : Resumes noted (.become state)) :
    Kept (annotate enter apply noted (.become state)) := by
  refine ⟨kept.small, kept.sorted, kept.filed, kept.held, kept.waits, kept.owed, ?_⟩
  intro open_
  have open_ : state = .opened := open_
  subst open_
  exact resumes

theorem kept_clear {noted : Noted THReliableChannel Ledger} (kept : Kept noted) (ack : Nat) :
    Kept (annotate enter apply noted (.clear ack)) := by
  have acknowledged : ∀ entry : Entry, (entry.acknowledge ack).acknowledged = false ↔
      entry.acknowledged = false ∧ ack < entry.number := by
    intro entry
    simp [Entry.acknowledge]
  refine ⟨kept.small, clearThrough_sorted kept.sorted ack, ?_, ?_, ?_, ?_, ?_⟩
  · intro node member
    exact kept.filed node ((mem_clearThrough kept.sorted ack node).mp member).1
  · intro entry member unacknowledged
    obtain ⟨old, inside, rfl⟩ := List.mem_map.mp member
    obtain ⟨open_, above⟩ := (acknowledged old).mp unacknowledged
    exact (seqs_clearThrough kept.sorted ack old.number).mpr ⟨kept.held old inside open_, above⟩
  · intro entry member unacknowledged unhanded
    obtain ⟨old, inside, rfl⟩ := List.mem_map.mp member
    obtain ⟨open_, above⟩ := (acknowledged old).mp unacknowledged
    exact List.mem_filter.mpr ⟨kept.waits old inside open_ unhanded, decide_eq_true above⟩
  · intro number member
    obtain ⟨waits, above⟩ := List.mem_filter.mp member
    obtain ⟨entry, inside, rfl, open_, unhanded⟩ := kept.owed number waits
    exact ⟨entry.acknowledge ack, List.mem_map_of_mem inside, rfl,
      (acknowledged entry).mpr ⟨open_, by simpa using above⟩, unhanded⟩
  · intro open_
    simp only [annotate, enter, kept.idle open_, List.filter_nil]

/-- A flush hands on all that waits. -/
theorem kept_flush {noted : Noted THReliableChannel Ledger} (kept : Kept noted) :
    Kept (annotate enter apply noted .flush) := by
  have handed : handedOn noted.state (apply noted.state .flush) =
      noted.state.outPacketBuffer.chain.map THPacketNode.packet := by
    simp [handedOn, apply, flushOut]
  refine ⟨kept.small, kept.sorted, kept.filed, ?_, ?_, List.forall_mem_nil _, fun _ => rfl⟩
  · intro entry member unacknowledged
    obtain ⟨old, inside, rfl⟩ := List.mem_map.mp member
    exact kept.held old inside unacknowledged
  · intro entry member unacknowledged unhanded
    obtain ⟨old, inside, rfl⟩ := List.mem_map.mp member
    -- what is not acknowledged is still in the buffer, and so flushed
    obtain ⟨node, stored, same⟩ := List.mem_map.mp (kept.held old inside unacknowledged)
    have printed : old.number ∈ (handedOn noted.state (apply noted.state .flush)).filterMap
        seqOf := by
      rw [handed, List.mem_filterMap]
      exact ⟨node.packet, List.mem_map_of_mem stored, by rw [kept.filed node stored, same]⟩
    simp [Entry.handOn, printed] at unhanded

theorem kept_resend {noted : Noted THReliableChannel Ledger} (kept : Kept noted) (miss : Json) :
    Kept (annotate enter apply noted (.resend miss)) := by
  refine ⟨kept.small, mutateMissed_sorted kept.sorted miss withoutMiss, ?_, ?_, ?_, ?_, kept.idle⟩
  · intro node member
    obtain ⟨old, inside, rfl⟩ := List.mem_map.mp member
    have filed := kept.filed old inside
    split
    · exact (seqOf_withoutMiss old.packet).trans filed
    · exact filed
  · intro entry member unacknowledged
    obtain ⟨old, inside, rfl⟩ := List.mem_map.mp member
    simp only [annotate, apply, resendMissingPackets, seqs_mutateMissed]
    exact kept.held old inside unacknowledged
  · intro entry member unacknowledged unhanded
    obtain ⟨old, inside, rfl⟩ := List.mem_map.mp member
    exact kept.waits old inside unacknowledged (Bool.or_eq_false_iff.mp unhanded).1
  · intro number member
    by_cases open_ : noted.state.state = .opened
    · have none : noted.note.waiting = [] := kept.idle open_
      rw [show (annotate enter apply noted (.resend miss)).note.waiting = _ from none] at member
      cases member
    · -- a channel that is not open resends nothing
      have silent : handedOn noted.state (apply noted.state (.resend miss)) = [] := by
        simp [handedOn, apply, resendMissingPackets, open_]
      obtain ⟨entry, inside, rfl, unacknowledged, unhanded⟩ := kept.owed number member
      refine ⟨entry.handOn [], ?_, rfl, unacknowledged, by simp [Entry.handOn, unhanded]⟩
      simp only [annotate, enter, silent]
      exact List.mem_map_of_mem inside

/-- A step that leaves the buffer, the counter and the state alone. -/
theorem kept_quiet {noted : Noted THReliableChannel Ledger} (kept : Kept noted)
    {primitive : Primitive} (quiet : enter noted.note noted.state primitive = noted.note)
    (number : (apply noted.state primitive).sequence = noted.state.sequence)
    (buffer : (apply noted.state primitive).outPacketBuffer = noted.state.outPacketBuffer)
    (state : (apply noted.state primitive).state = noted.state.state) :
    Kept (annotate enter apply noted primitive) := by
  simp only [annotate, quiet]
  exact ⟨number ▸ kept.small, buffer ▸ kept.sorted, buffer ▸ kept.filed, buffer ▸ kept.held,
    kept.waits, kept.owed, state ▸ kept.idle⟩

/-- Halted channels refuse every packet, the others those without content. -/
theorem kept_refused {noted : Noted THReliableChannel Ledger} (kept : Kept noted)
    {packet : THPacket} (refused : ¬ Accepts noted.state packet) :
    Kept (annotate enter apply noted (.send packet)) := by
  have quiet : enter noted.note noted.state (.send packet) = noted.note := by
    simp only [enter, refused, ↓reduceIte]
  by_cases halted : noted.state.state.Halted
  · have view := outbound_sendPacket_halted halted packet
    exact kept_quiet kept quiet (congrArg Outbound.sequence view)
      (congrArg Outbound.outPacketBuffer view) (congrArg Outbound.state view)
  · have bare : isContent packet = false :=
      Bool.eq_false_iff.mpr fun content => refused ⟨halted, content⟩
    have view := outbound_sendPacket halted packet
    simp only [outgoing_bare_seq bare, bare, Option.isSome_none, Bool.false_eq_true,
      ↓reduceIte] at view
    exact kept_quiet kept quiet (congrArg Outbound.sequence view)
      (congrArg Outbound.outPacketBuffer view) (congrArg Outbound.state view)

/-- An accepted packet is filed under its number. -/
theorem accepted_filed {noted : Noted THReliableChannel Ledger} (kept : Kept noted)
    {packet : THPacket} (json : packet.json.isSome) (accepts : Accepts noted.state packet) :
    (noted.state.sendPacket packet).sequence < uintModulus ∧
      Sorted (noted.state.sendPacket packet).outPacketBuffer ∧
      (∀ node ∈ (noted.state.sendPacket packet).outPacketBuffer.chain,
        seqOf node.packet = some node.seq) ∧
      ∀ seq, seq ∈ (noted.state.sendPacket packet).outPacketBuffer.seqs ↔
        seq ∈ noted.state.outPacketBuffer.seqs ∨ seq = noted.state.sequence := by
  obtain ⟨alive, content⟩ := accepts
  have read : seqOf (noted.state.outgoing packet) = some noted.state.sequence :=
    outgoing_content_seq json content kept.small
  have view := outbound_sendPacket alive packet
  simp only [read, content, Option.isSome_some, ↓reduceIte] at view
  have number : (noted.state.sendPacket packet).sequence =
      (noted.state.sequence + 1) % uintModulus := congrArg Outbound.sequence view
  have buffer : (noted.state.sendPacket packet).outPacketBuffer =
      noted.state.outPacketBuffer.push (noted.state.outgoing packet) :=
    congrArg Outbound.outPacketBuffer view
  rw [buffer, number]
  refine ⟨Nat.mod_lt _ (Nat.two_pow_pos 64), push_sorted kept.sorted _, ?_, ?_⟩
  · intro node member
    rcases (mem_push kept.sorted _ node).mp member with old | ⟨rfl, _⟩
    · exact kept.filed node old
    · rw [nodeWithPacket_seq read]
      exact read
  · intro seq
    rw [seqs_push kept.sorted, nodeWithPacket_seq read]

/-- An accepted packet gets an entry. It waits unless the channel is open and
hands it on at once. -/
theorem kept_accepted {noted : Noted THReliableChannel Ledger} (kept : Kept noted)
    {packet : THPacket} (json : packet.json.isSome) (accepts : Accepts noted.state packet) :
    Kept (annotate enter apply noted (.send packet)) := by
  obtain ⟨small, sorted, filed, seqs⟩ := accepted_filed kept json accepts
  obtain ⟨channel, ledger⟩ := noted
  have accepts : Accepts channel packet := accepts
  have view := outbound_sendPacket accepts.1 packet
  have state : (channel.sendPacket packet).state = channel.state := congrArg Outbound.state view
  have transmitted : (channel.sendPacket packet).history.transmitted = _ :=
    congrArg Outbound.transmitted view
  have holds : ∀ handed, ∀ entry ∈ ledger.entries ++ [⟨channel.sequence, false, handed⟩],
      entry.acknowledged = false →
        entry.number ∈ (channel.sendPacket packet).outPacketBuffer.seqs := by
    intro handed entry member unacknowledged
    rcases List.mem_append.mp member with old | new
    · exact (seqs entry.number).mpr (Or.inl (kept.held entry old unacknowledged))
    · rw [List.mem_singleton.mp new]
      exact (seqs channel.sequence).mpr (Or.inr rfl)
  simp only [annotate, enter, accepts, ↓reduceIte, apply]
  by_cases open_ : channel.state = .opened
  · have handed : handedOn channel (channel.sendPacket packet) = [channel.outgoing packet] := by
      simp [handedOn, transmitted, open_]
    have none : ledger.waiting = [] := kept.idle open_
    simp only [handed, open_, ↓reduceIte]
    refine ⟨small, sorted, filed, holds _, ?_, ?_, fun _ => none⟩
    · intro entry member unacknowledged unhanded
      rcases List.mem_append.mp member with old | new
      · exact kept.waits entry old unacknowledged unhanded
      · rw [List.mem_singleton.mp new] at unhanded
        cases unhanded
    · intro seq member
      rw [none] at member
      cases member
  · have handed : handedOn channel (channel.sendPacket packet) = [] := by
      simp [handedOn, transmitted, open_]
    simp only [handed, open_, ↓reduceIte]
    refine ⟨small, sorted, filed, holds _, ?_, ?_, ?_⟩
    · intro entry member unacknowledged unhanded
      rcases List.mem_append.mp member with old | new
      · exact List.mem_append_left _ (kept.waits entry old unacknowledged unhanded)
      · rw [List.mem_singleton.mp new]
        exact List.mem_append_right _ List.mem_cons_self
    · intro seq member
      rcases List.mem_append.mp member with old | new
      · obtain ⟨entry, inside, facts⟩ := kept.owed seq old
        exact ⟨entry, List.mem_append_left _ inside, facts⟩
      · rw [List.mem_singleton.mp new]
        exact ⟨_, List.mem_append_right _ List.mem_cons_self, rfl, rfl, rfl⟩
    · intro opened_
      exact absurd (state.symm.trans opened_) open_

theorem kept_apply {noted : Noted THReliableChannel Ledger} {primitive : Primitive}
    (written : ∀ packet, primitive = .send packet → packet.json.isSome)
    (resumes : Resumes noted primitive) (kept : Kept noted) :
    Kept (annotate enter apply noted primitive) := by
  cases primitive with
  | send packet =>
      by_cases accepts : Accepts noted.state packet
      · exact kept_accepted kept (written packet rfl) accepts
      · exact kept_refused kept accepts
  | become state => exact kept_become kept state resumes
  | resend miss => exact kept_resend kept miss
  | clear ack => exact kept_clear kept ack
  | flush => exact kept_flush kept
  | enqueue packet =>
      obtain ⟨_, changed⟩ := enqueue_eq noted.state packet
      have entered : apply noted.state (.enqueue packet) = _ := changed
      refine kept_quiet kept rfl ?_ ?_ ?_
      · rw [entered]
      · rw [entered]
      · rw [entered]
  | process packet =>
      obtain ⟨_, _, changed⟩ := noteProcessed_eq noted.state packet
      have moved : apply noted.state (.process packet) = _ := changed
      refine kept_quiet kept rfl ?_ ?_ ?_
      · rw [moved]
      · rw [moved]
      · rw [moved]
  | arrive | deregister | see | adopt | receive | look | pop =>
      exact kept_quiet kept rfl rfl rfl rfl

/-! ## Runs -/

theorem resumes_of_lossless {noted : Noted THReliableChannel Ledger} (kept : Kept noted)
    {primitive : Primitive} (lossless : Lossless (annotate enter apply noted primitive)) :
    Resumes noted primitive := by
  cases primitive with
  | become state =>
      cases state with
      | opened => exact (opens_lossless_iff kept).mp lossless
      | opening | paused | ended | errored => trivial
  | arrive | send | deregister | see | resend | clear | adopt | receive | enqueue | look | pop
  | process | flush => trivial

theorem lossless_iff_resumes {noted : Noted THReliableChannel Ledger}
    {primitives : List Primitive} (kept : Kept noted)
    (written : ∀ packet, .send packet ∈ primitives → packet.json.isSome) :
    Throughout (annotate enter apply) Lossless noted primitives ↔
      Along (annotate enter apply) Resumes noted primitives := by
  have preserved : ∀ (reached : Noted THReliableChannel Ledger) (primitive : Primitive),
      (∀ packet, primitive = .send packet → packet.json.isSome) → Resumes reached primitive →
      Kept reached → Kept (annotate enter apply reached primitive) :=
    fun _ _ written resumes kept => kept_apply written resumes kept
  refine throughout_iff_along (fun _ kept => lossless_of_kept kept) preserved
    (fun _ _ _ kept lossless => resumes_of_lossless kept lossless) noted primitives kept ?_
  apply along_everywhere
  rintro _ member _ packet rfl
  exact written packet member

/-- In every run, whatever arrives and whatever the delegate does: an open
channel has always handed on all that is unacknowledged exactly when each change
to Open finds nothing waiting. -/
theorem pausing_lossless_iff (channelId : Nat) (events : List Event)
    (written : ∀ packet, .send packet ∈ record (initToIdentity channelId) events →
      packet.json.isSome) :
    Throughout (annotate enter apply) Lossless ⟨initToIdentity channelId, ⟨[], []⟩⟩
        (record (initToIdentity channelId) events) ↔
      Along (annotate enter apply) Resumes ⟨initToIdentity channelId, ⟨[], []⟩⟩
        (record (initToIdentity channelId) events) :=
  lossless_iff_resumes (kept_start channelId) written

def hello : THPacket := { THPacket.new with body := some [104, 105] }

theorem pausing_lossless_flushed :
    Throughout (annotate enter apply) Lossless ⟨initToIdentity 1, ⟨[], []⟩⟩
      (record (initToIdentity 1) [.sendPacket hello, .flushOut, .setState .none .opened,
        .setState .none .paused, .sendPacket hello, .flushOut, .setState .none .opened]) := by
  refine (pausing_lossless_iff 1 _ ?_).mpr ?_
  · intro packet member
    have same : packet = hello := by
      simpa [record, steps, setStateSteps, callsSteps, Delegate.none] using member
    rw [same]
    rfl
  · exact ⟨trivial, trivial, rfl, trivial, trivial, trivial, rfl, trivial⟩

/-- A packet sent in a pause is not sent by ending the pause. -/
theorem resume_sends_nothing :
    ¬ Throughout (annotate enter apply) Lossless ⟨initToIdentity 1, ⟨[], []⟩⟩
      (record (initToIdentity 1) [.setState .none .opened, .setState .none .paused,
        .sendPacket hello, .setState .none .opened]) := by
  rintro ⟨_, _, _, _, lossless⟩
  have handed := lossless rfl ⟨0, false, false⟩ (by decide +kernel) rfl
  cases handed

end Telehash.PausedSends
