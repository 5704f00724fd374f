import Telehash.ChannelOpening
import Telehash.LiveChannels
import Telehash.ReliablePair
import Telehash.ReliableTrace

/-!
A reliable channel whose near end sends, closes and leaves the channel table,
while acknowledgements and requests of the far end are still on their way. They
reach the near end through its line, which knows the channel by the table only;
the application keeps the channel itself.
-/

namespace Telehash.ClosingChannel
open Association OrderedChain Foundation Packet PacketBuffer CipherSet Channel ReliableChannel
open ReliableViews ReliableInbound ReliableOutbound ReliablePair LineDispatch ChannelTrace
open LiveChannels Runs TwoSided THReliableChannel

/-- The near end's line, and the channel as each end holds it. -/
structure Joined where
  line : LineSide
  ends : Pair

def Joined.near (joined : Joined) : THReliableChannel := joined.ends .near

def Joined.far (joined : Joined) : THReliableChannel := joined.ends .far

/-- The channel is in the near end's table; nothing has been sent. -/
def opening (line : LineSide) (channelId : Nat) : Joined where
  line := line.store channelId (.reliable (initToIdentity channelId))
  ends := ReliablePair.joined channelId

inductive Event where
  -- a packet of the channel reaches the near end's line
  | arrives (surroundings : Surroundings) (packet : THPacket)
  | near (event : ReliableChannel.Event)
  | far (event : ReliableChannel.Event)

section Machine
variable (services : Services) (channelId : Nat)

def arrive (joined : Joined) (surroundings : Surroundings) (packet : THPacket) : Joined where
  line := ChannelOpening.step services joined.line (.handlePacket surroundings packet)
  ends :=
    if joined.near.registered then
      Function.update joined.ends .near (passReliable surroundings packet joined.near)
    else joined.ends

/-- What a call on the near channel does to the table. A channel that is gone
from it takes out whatever has its id when it is closed once more. -/
def afterCall (joined : Joined) (event : ReliableChannel.Event) : LineSide :=
  if joined.near.registered then
    joined.line.store channelId (.reliable (ReliableChannel.step joined.near event))
  else match event with
    | .close _ => { joined.line with channels := joined.line.channels.erase channelId }
    | _ => joined.line

def step (joined : Joined) : Event → Joined
  | .arrives surroundings packet => arrive services joined surroundings packet
  | .near event =>
      ⟨afterCall channelId joined event, act ReliableChannel.step joined.ends ⟨.near, event⟩⟩
  | .far event => { joined with ends := act ReliableChannel.step joined.ends ⟨.far, event⟩ }

end Machine

/-! ## What can happen -/

def ErrFree (packet : THPacket) : Prop := packet.objectForKey "err" = none

def SendsNoErr (calls : List Call) : Prop := ∀ packet, .sendPacket packet ∈ calls → ErrFree packet

/-- The application writes no error of its own on what it sends. -/
structure WritesNoErr (application : Application) : Prop where
  fails : ∀ err, SendsNoErr (application.delegate.didFailWithError err)
  handles : ∀ packet, SendsNoErr (application.delegate.handlePacket packet)
  ready : ∀ type packet, SendsNoErr (application.channelReady type packet)

/-- A packet for the channel, of no type the line has a branch for. -/
def ForChannel (channelId : Nat) (packet : THPacket) : Prop :=
  channelIdOf packet = some channelId ∧
    ∃ type, readText (packet.objectForKey "type") = .ok type ∧
      ∀ reserved ∈ ChannelOpening.reservedTypes, type ≠ some reserved

/-- What the far end has transmitted may reach the near end's line, and the
other way round. The near channel is opened, sends and closes. Once it has left
the table the application may find another channel under its id; an error it
writes there is no answer of the line. -/
def Possible (channelId : Nat) (joined : Joined) : Event → Prop
  | .arrives surroundings packet =>
      (∃ sent ∈ joined.far.history.transmitted, Carries packet sent) ∧
        ForChannel channelId packet ∧
        (joined.near.registered = false → WritesNoErr surroundings.application)
  | .near (.handlePacket _ _) => False
  | .near (.setState _ state) =>
      joined.near.registered = true ∧ ¬ joined.near.state.Halted ∧ state = .opened
  | .near .flushOut => joined.near.registered = true
  | .near _ => True
  | .far event => ReliablePair.Possible joined.ends ⟨.far, event⟩

/-! ## What the near end owes -/

def Asks (packet : THPacket) (seq : Nat) : Prop :=
  ∃ miss, packet.objectForKey "miss" = some miss ∧ .number seq ∈ miss.arrayItems

/-- The far end asks for a packet that went out with the number and that it has
not received. -/
def Wanted (joined : Joined) (packet : THPacket) (seq : Nat) : Prop :=
  Asks packet seq ∧ (∃ sent ∈ joined.near.history.numbered, seqOf sent = some seq) ∧
    ∀ received ∈ joined.far.history.received, seqOf received ≠ some seq

/-- A packet with the number goes out anew, with the content passed under it. -/
def Resent (before after : THReliableChannel) (seq : Nat) : Prop :=
  ∃ sent, after.history.transmitted = before.history.transmitted ++ sent ∧
    ∃ packet ∈ sent, seqOf packet = some seq ∧
      (after.history.passed.length ≤ uintModulus →
        ∃ original, after.history.passed[seq]? = some original ∧ SameContent packet original)

/-- The line answers with no error for the channel. -/
def NoErrAnswer (channelId : Nat) (before after : LineSide) : Prop :=
  ∃ answers, after.sent = before.sent ++ answers ∧
    ∀ answer ∈ answers, channelIdOf answer = some channelId → ErrFree answer

def Answered (services : Services) (channelId : Nat) (joined : Joined) : Event → Prop
  | .arrives surroundings packet =>
      let after := arrive services joined surroundings packet
      NoErrAnswer channelId joined.line after.line ∧
        ∀ seq, Wanted joined packet seq → Resent joined.near after.near seq
  | _ => True

/-- While the channel is in the table: what is asked for with good reason is
asked of an open channel, not in a packet that fails it or at which the delegate
closes it, and packet 0 is still held when it is asked for. -/
def AskedWhileOpen (joined : Joined) : Event → Prop
  | .arrives surroundings packet =>
      joined.near.registered = true → ∀ seq, Wanted joined packet seq →
        (joined.near.state = .opened ∨ opensAgain packet = true) ∧ ErrFree packet ∧
          (opensAgain packet = true →
            closes (surroundings.application.delegate.didChangeStateTo .opened) = false) ∧
          (seq = 0 → 0 ∈ joined.near.outPacketBuffer.seqs)
  | _ => True

/-- Once the channel has left the table: nothing is asked for with good reason,
and a packet that finds no channel is spurious or makes one. -/
def QuietOnceClosed (channelId : Nat) (joined : Joined) : Event → Prop
  | .arrives _ packet =>
      joined.near.registered = false →
        (joined.line.channels.lookup channelId = none →
          Spurious packet ∨ (packet.objectForKey "type").isSome = true) ∧
          ∀ seq, ¬ Wanted joined packet seq
  | _ => True

/-! ## Another channel under the id -/

section Successor
open UnreliableChannel (THUnreliableChannel)
open UnreliableChannel.THUnreliableChannel (realSend)

/-- Nothing it has sent or keeps back carries an error. -/
structure Clean (channel : THUnreliableChannel) : Prop where
  outbox : ∀ packet ∈ channel.outbox, ErrFree packet
  buffer : ∀ packet ∈ channel.packetBuffer, ErrFree packet

theorem errFree_addressed {packet : THPacket} (channelId : Nat) (free : ErrFree packet) :
    ErrFree (packet.setObject (.number channelId) "c") :=
  (objectForKey_setObject_other packet _ _ _ (by decide)).trans free

theorem sendsNoErr_cons {call : Call} {rest : List Call} (noErr : SendsNoErr (call :: rest)) :
    SendsNoErr rest := fun packet member => noErr packet (List.mem_cons_of_mem _ member)

variable {channel : THUnreliableChannel} (clean : Clean channel)
include clean

theorem clean_realSend {packet : THPacket} (free : ErrFree packet) :
    Clean (channel.realSend packet) := by
  refine ⟨fun other member => ?_, clean.buffer⟩
  rcases List.mem_append.mp member with old | new
  · exact clean.outbox other old
  · rw [List.mem_singleton.mp new]
    exact free

theorem clean_sendPacket (now : Nat) {packet : THPacket} (free : ErrFree packet) :
    Clean (channel.sendPacket now packet) := by
  have addressed := errFree_addressed channel.channelId free
  unfold UnreliableChannel.THUnreliableChannel.sendPacket
  dsimp only
  split
  · exact ⟨clean.outbox, clean.buffer⟩
  · have active : Clean ({ channel with lastOutActivity := now }.adoptType packet) :=
      ⟨clean.outbox, clean.buffer⟩
    unfold UnreliableChannel.THUnreliableChannel.sendAddressed
    dsimp only
    split
    · exact clean_realSend active addressed
    · refine ⟨clean.outbox, fun other member => ?_⟩
      rcases List.mem_append.mp member with old | new
      · exact clean.buffer other old
      · rw [List.mem_singleton.mp new]
        exact addressed

theorem clean_setState (state : THChannelState) : Clean (channel.setState state) := by
  rw [UnreliableChannel.THUnreliableChannel.setState_eq]
  split
  · have start : Clean { channel with state := state, packetBuffer := [] } :=
      ⟨clean.outbox, List.forall_mem_nil _⟩
    exact List.foldlRecOn _ realSend start fun _ reached packet member =>
      clean_realSend reached (clean.buffer packet member)
  · exact ⟨clean.outbox, clean.buffer⟩

theorem clean_close (now : Nat) : Clean (channel.close now) := by
  unfold UnreliableChannel.THUnreliableChannel.close
  split
  · exact ⟨clean.outbox, clean.buffer⟩
  · have free : ErrFree endPacket := rfl
    have ended := clean_setState (clean_sendPacket clean now free) .ended
    exact ⟨ended.outbox, ended.buffer⟩

theorem clean_performAll (now : Nat) {calls : List Call} (noErr : SendsNoErr calls) :
    Clean (channel.performAll now calls) := by
  induction calls generalizing channel with
  | nil => exact clean
  | cons call rest ih =>
      refine ih ?_ (sendsNoErr_cons noErr)
      cases call with
      | sendPacket packet => exact clean_sendPacket clean now (noErr packet List.mem_cons_self)
      | close => exact clean_close clean now

theorem clean_handlePacket {delegate : Delegate} (now : Nat) (packet : THPacket)
    (fails : ∀ err, SendsNoErr (delegate.didFailWithError err))
    (handles : SendsNoErr (delegate.handlePacket packet)) :
    Clean (channel.handlePacket delegate now packet) := by
  have failed : Clean (channel.superHandlePacket delegate now packet) := by
    unfold UnreliableChannel.THUnreliableChannel.superHandlePacket
    split
    · exact clean
    · rename_i err _
      have errored := clean_setState (clean_performAll clean now (fails err)) .errored
      exact ⟨errored.outbox, errored.buffer⟩
  exact UnreliableChannel.THUnreliableChannel.handlePacket_keeps failed
    (fun _ held => ⟨held.outbox, held.buffer⟩)
    (fun _ held => clean_performAll held now handles)
    fun _ held => clean_close (clean_setState held .ended) now

end Successor

/-! ## The outgoing half of the near end -/

/-- Every packet in the out buffer stands under its own number. -/
structure Filed (view : Outbound) : Prop where
  sorted : Sorted view.outPacketBuffer
  stamped : ∀ node ∈ view.outPacketBuffer.chain, seqOf node.packet = some node.seq

/-- A send leaves the buffer alone or pushes a packet with a number. -/
theorem buffer_sendPacket (channel : THReliableChannel) (packet : THPacket) :
    (channel.sendPacket packet).outPacketBuffer = channel.outPacketBuffer ∨
      ∃ stamped seq, seqOf stamped = some seq ∧
        (channel.sendPacket packet).outPacketBuffer = channel.outPacketBuffer.push stamped := by
  have noted : (channel.notePassed packet).outPacketBuffer = channel.outPacketBuffer :=
    congrArg Outbound.outPacketBuffer (outbound_notePassed channel packet)
  unfold sendPacket
  split
  · exact Or.inl noted
  · rw [← noted]
    generalize channel.notePassed packet = ready
    cases found : (ready.outgoing packet).objectForKey "seq" with
    | none => exact Or.inl (by simp [sendStamped, found])
    | some value =>
        refine Or.inr ⟨ready.outgoing packet, value.unsignedIntegerValue, ?_, ?_⟩
        · simp [seqOf, found]
        · simp [sendStamped, found]

theorem filed_sendPacket (channel : THReliableChannel) (packet : THPacket)
    (filed : Filed (outbound channel)) : Filed (outbound (channel.sendPacket packet)) := by
  rcases buffer_sendPacket channel packet with same | ⟨stamped, seq, numbered, pushed⟩
  · have view : (outbound (channel.sendPacket packet)).outPacketBuffer =
        channel.outPacketBuffer := same
    exact ⟨view ▸ filed.sorted, view ▸ filed.stamped⟩
  · have sorted : Sorted channel.outPacketBuffer := filed.sorted
    have view : (outbound (channel.sendPacket packet)).outPacketBuffer =
        channel.outPacketBuffer.push stamped := pushed
    refine ⟨view ▸ push_sorted sorted stamped, fun node member => ?_⟩
    · rcases (mem_push sorted stamped node).mp (view ▸ member) with old | ⟨rfl, _⟩
      · exact filed.stamped node old
      · rw [nodeWithPacket_seq numbered]
        exact numbered

theorem filed_outward : Outward Filed where
  sends := filed_sendPacket
  halts _ _ _ filed := ⟨filed.sorted, filed.stamped⟩
  resends channel miss filed := by
    refine ⟨mutateMissed_sorted filed.sorted miss withoutMiss, fun node member => ?_⟩
    obtain ⟨old, inside, rfl⟩ := List.mem_map.mp member
    split
    · exact (seqOf_withoutMiss old.packet).trans (filed.stamped old inside)
    · exact filed.stamped old inside
  proceeds _ _ _ filed := ⟨filed.sorted, filed.stamped⟩
  flushes _ filed := ⟨filed.sorted, filed.stamped⟩

theorem filed_step (channel : THReliableChannel) (event : ReliableChannel.Event)
    (ordered : InOrder (inbound channel)) (filed : Filed (outbound channel)) :
    Filed (outbound (ReliableChannel.step channel event)) := by
  refine outward_step filed_outward channel event ordered filed ?_ ?_
  · intro delegate packet _
    refine outward_beforeAdmission filed_outward channel delegate packet filed ?_
    intro view ack _ kept
    exact ⟨clearThrough_sorted kept.sorted ack, fun node member =>
      kept.stamped node ((mem_clearThrough kept.sorted ack node).mp member).1⟩
  · intro delegate state _
    exact ⟨filed.sorted, filed.stamped⟩

/-- Calls of a delegate put packets into the buffer and take none out. -/
def Holds (seq : Nat) (channel : THReliableChannel) : Prop :=
  Sorted channel.outPacketBuffer ∧ seq ∈ channel.outPacketBuffer.seqs

theorem holds_stable (seq : Nat) : Stable (Holds seq) where
  sends channel packet holds := by
    rcases buffer_sendPacket channel packet with same | ⟨stamped, _, _, pushed⟩
    · exact ⟨same ▸ holds.1, same ▸ holds.2⟩
    · refine ⟨pushed ▸ push_sorted holds.1 stamped, ?_⟩
      rw [pushed]
      exact (seqs_push holds.1 stamped seq).mpr (Or.inl holds.2)
  halts _ _ _ holds := holds
  deregisters _ holds := holds

/-! ## Two ends in step -/

/-- Of what went out at the near end only packet 0 may be gone from its buffer
before the far end has handed it over. -/
structure Guarded (pair : Pair) : Prop where
  sound : Sound pair
  retains : Retains (max 1 (pair .far).history.delivered.length) (outbound (pair .near))
  filed : Filed (outbound (pair .near))

theorem guarded_start (channelId : Nat) : Guarded (ReliablePair.joined channelId) where
  sound := sound_start channelId
  retains := ⟨ascending_nil, List.forall_mem_nil _⟩
  filed := ⟨ascending_nil, List.forall_mem_nil _⟩

/-- An acknowledgement clears what the far end has handed over, and packet 0. -/
theorem retains_near (pair : Pair) (event : ReliableChannel.Event)
    (possible : ReliablePair.Possible pair ⟨.near, event⟩) (guarded : Guarded pair) :
    Retains (max 1 (pair .far).history.delivered.length)
      (outbound (ReliableChannel.step (pair .near) event)) := by
  have outward := retains_outward (max 1 (pair .far).history.delivered.length)
  refine outward_step outward (pair .near) event (guarded.sound.ordered .near) guarded.retains
    ?_ ?_
  · rintro delegate packet rfl
    refine outward_beforeAdmission outward (pair .near) delegate packet guarded.retains ?_
    intro view ack found kept
    refine retains_clear kept fun seq _ low => ?_
    have below := ack_below guarded.sound .near possible found
    have side : (pair Side.near.other).history.delivered.length =
        (pair .far).history.delivered.length := rfl
    omega
  · intro delegate state _
    exact ⟨guarded.retains.sorted, guarded.retains.kept⟩

theorem guarded_act (pair : Pair) (action : Action ReliableChannel.Event)
    (possible : ReliablePair.Possible pair action) (guarded : Guarded pair) :
    Guarded (act ReliableChannel.step pair action) := by
  have sound := sound_act pair action possible guarded.sound
  obtain ⟨side, event⟩ := action
  cases side with
  | near =>
      have moved := act_same ReliableChannel.step pair .near event
      have unmoved : act ReliableChannel.step pair ⟨.near, event⟩ .far = pair .far :=
        act_other ReliableChannel.step pair .near event
      refine ⟨sound, ?_, ?_⟩
      · rw [moved, unmoved]
        exact retains_near pair event possible guarded
      · rw [moved]
        exact filed_step (pair .near) event (guarded.sound.ordered .near) guarded.filed
  | far =>
      have moved := act_same ReliableChannel.step pair .far event
      have unmoved : act ReliableChannel.step pair ⟨.far, event⟩ .near = pair .near :=
        act_other ReliableChannel.step pair .far event
      have grows := (delivered_grows (pair .far) event).length_le
      refine ⟨sound, ?_, ?_⟩
      · rw [moved, unmoved]
        exact retains_mono (max_le_max_left 1 grows) guarded.retains
      · rw [unmoved]
        exact guarded.filed

/-- What the line passes on is one event of the near channel, or two. -/
theorem guarded_pass (pair : Pair) (surroundings : Surroundings) (packet : THPacket)
    (awake : ¬ (pair .near).state.Halted)
    (arrives : ∃ sent ∈ (pair .far).history.transmitted, Carries packet sent)
    (guarded : Guarded pair) :
    Guarded (Function.update pair .near (passReliable surroundings packet (pair .near))) := by
  let delegate := surroundings.application.delegate
  unfold passReliable
  split
  · have opened_ := guarded_act pair ⟨.near, .setState delegate .opened⟩ awake guarded
    have unmoved : act ReliableChannel.step pair ⟨.near, .setState delegate .opened⟩ .far =
        pair .far := act_other ReliableChannel.step pair .near _
    have still : ReliablePair.Possible
        (act ReliableChannel.step pair ⟨.near, .setState delegate .opened⟩)
        ⟨.near, .handlePacket delegate packet⟩ := by
      obtain ⟨sent, transmitted, carries⟩ := arrives
      exact ⟨sent, by rw [Side.other, unmoved]; exact transmitted, carries⟩
    have handled := guarded_act _ ⟨.near, .handlePacket delegate packet⟩ still opened_
    simpa [act, ReliableChannel.step] using handled
  · exact guarded_act pair ⟨.near, .handlePacket delegate packet⟩ arrives guarded

/-- What is wanted is still in the buffer, unless it is packet 0. -/
theorem wanted_held {joined : Joined} (guarded : Guarded joined.ends) {packet : THPacket}
    {seq : Nat} (wanted : Wanted joined packet seq) :
    seq = 0 ∨ seq ∈ joined.near.outPacketBuffer.seqs := by
  obtain ⟨_, ⟨sent, numbered, stamped⟩, missing⟩ := wanted
  rcases guarded.retains.kept sent numbered seq stamped with held | below
  · exact Or.inr held
  · by_cases first : seq = 0
    · exact Or.inl first
    · have handed : seq < joined.far.history.delivered.length := by
        unfold Joined.far
        omega
      have found := (guarded.sound.ordered .far).delivered seq handed
      exact absurd (firstWith_seq found) (missing _ (firstWith_mem found))

/-! ## Resending -/

/-- What a request that fails nothing makes an open channel send again. -/
theorem missed_resent {channel : THReliableChannel} {packet : THPacket} {seq : Nat}
    (delegate : Delegate) (filed : Filed (outbound channel))
    (current : channel.state = .opened) (free : ErrFree packet) (asks : Asks packet seq)
    (held : seq ∈ channel.outPacketBuffer.seqs) :
    ∃ resent, (channel.beforeAdmission delegate packet).history.transmitted =
        channel.history.transmitted ++ resent ∧
      ∃ again ∈ resent, seqOf again = some seq := by
  obtain ⟨miss, found, asked⟩ := asks
  obtain ⟨node, inside, rfl⟩ := List.mem_map.mp held
  have missing : missed miss node = true := List.any_eq_true.mpr ⟨_, asked, by simp⟩
  refine ⟨(channel.outPacketBuffer.packetsForMiss miss).map withoutMiss, ?_,
    withoutMiss node.packet, ?_, ?_⟩
  · have sound : channel.superHandlePacket delegate packet = channel := by
      unfold superHandlePacket
      rw [show packet.objectForKey "err" = none from free]
    unfold beforeAdmission handleAck handleMiss
    simp only [sound, found]
    split <;> simp [adoptType, resendMissingPackets, sawSeq, current]
  · exact List.mem_map_of_mem
      (List.mem_map_of_mem (List.mem_filter.mpr ⟨inside, missing⟩))
  · exact (seqOf_withoutMiss node.packet).trans (filed.stamped node inside)

theorem handlePacket_resends {channel : THReliableChannel} {packet : THPacket} {seq : Nat}
    (delegate : Delegate) (ordered : InOrder (inbound channel)) (filed : Filed (outbound channel))
    (current : channel.state = .opened) (free : ErrFree packet) (asks : Asks packet seq)
    (held : seq ∈ channel.outPacketBuffer.seqs) :
    ∃ sent, (channel.handlePacket delegate packet).history.transmitted =
        channel.history.transmitted ++ sent ∧
      ∃ again ∈ sent, seqOf again = some seq := by
  obtain ⟨resent, before, again, member, stamped⟩ :=
    missed_resent delegate filed current free asks held
  have recorded : Records [] (channel.beforeAdmission delegate packet).history.transmitted
      (outbound (channel.beforeAdmission delegate packet)) := ⟨List.nil_prefix, List.prefix_rfl⟩
  have handled := outward_handlePacket (records_outward _ _) channel delegate packet ordered
    recorded
  obtain ⟨more, whole⟩ := handled.transmitted
  refine ⟨resent ++ more, ?_, again, List.mem_append_left _ member, stamped⟩
  rw [← List.append_assoc, ← before]
  exact whole.symm

/-- The line's own change of state comes first. -/
theorem pass_resends {channel : THReliableChannel} {packet : THPacket} {seq : Nat}
    (surroundings : Surroundings) (ordered : InOrder (inbound channel))
    (filed : Filed (outbound channel)) (asks : Asks packet seq)
    (held : seq ∈ channel.outPacketBuffer.seqs)
    (current : channel.state = .opened ∨ opensAgain packet = true) (free : ErrFree packet)
    (stays : opensAgain packet = true →
      closes (surroundings.application.delegate.didChangeStateTo .opened) = false) :
    ∃ sent, (passReliable surroundings packet channel).history.transmitted =
        channel.history.transmitted ++ sent ∧
      ∃ again ∈ sent, seqOf again = some seq := by
  let delegate := surroundings.application.delegate
  unfold passReliable
  split
  · rename_i opens
    let met := channel.setState delegate .opened
    have state : met.state = .opened := by
      have reached := ReliableTrace.state_setState channel delegate .opened
      rw [afterCalls, stays opens] at reached
      exact reached
    have view : inbound met = inbound channel := inbound_setState channel delegate .opened
    have moved : Filed (outbound met) :=
      filed_step channel (.setState delegate .opened) ordered filed
    have kept : Holds seq met :=
      stable_performAll (holds_stable seq) { channel with state := .opened } delegate _
        ⟨filed.sorted, held⟩
    have recorded := records_step channel (.setState delegate .opened) ordered
    obtain ⟨earlier, first⟩ := recorded.transmitted
    obtain ⟨sent, whole, again, member, stamped⟩ :=
      handlePacket_resends delegate (view ▸ ordered) moved state free asks kept.2
    refine ⟨earlier ++ sent, ?_, again, List.mem_append_right _ member, stamped⟩
    rw [← List.append_assoc, first]
    exact whole
  · rename_i plain
    exact handlePacket_resends delegate ordered filed (current.resolve_right plain) free asks held

/-! ## The line -/

theorem lookup_store_reliable (line : LineSide) (channelId : Nat) (channel : THReliableChannel) :
    (line.store channelId (.reliable channel)).channels.lookup channelId =
      if channel.registered then some (.reliable channel) else none := by
  simp only [LineSide.store]
  split
  · exact lookup_insert_same _ _ _
  · exact lookup_erase_same _ _

theorem lookup_store_unreliable (line : LineSide) (channelId : Nat)
    (channel : UnreliableChannel.THUnreliableChannel) :
    (line.store channelId (.unreliable channel)).channels.lookup channelId =
      if channel.registered then some (.unreliable { channel with outbox := [] }) else none := by
  simp only [LineSide.store]
  split
  · exact lookup_insert_same _ _ _
  · exact lookup_erase_same _ _

theorem read_isSome {value : Option Json} {type : Option String}
    (read : readText value = .ok type) : value.isSome = type.isSome := by
  unfold readText at read
  split at read <;> cases read <;> rfl

theorem arrive_line {services : Services} {channelId : Nat} {joined : Joined}
    {surroundings : Surroundings} {packet : THPacket} (forChannel : ForChannel channelId packet) :
    ∃ type, readText (packet.objectForKey "type") = .ok type ∧
      (arrive services joined surroundings packet).line =
        joined.line.channelBranch surroundings channelId type packet := by
  obtain ⟨addressed, type, read, free⟩ := forChannel
  refine ⟨type, read, ?_⟩
  have handled := ChannelOpening.handlePacket_channel services joined.line surroundings
    addressed read free
  simp only [arrive, ChannelOpening.step, handled]

/-- What the line may hold under the id once the channel has left. -/
def CleanAt (channelId : Nat) (line : LineSide) : Prop :=
  ∀ other, line.channels.lookup channelId = some (.unreliable other) → Clean other

theorem cleanAt_reliable (line : LineSide) (channelId : Nat) (channel : THReliableChannel) :
    CleanAt channelId (line.store channelId (.reliable channel)) := by
  intro other found
  rw [lookup_store_reliable] at found
  split at found <;> cases found

theorem cleanAt_unreliable (line : LineSide) (channelId : Nat)
    {channel : UnreliableChannel.THUnreliableChannel} (clean : Clean channel) :
    CleanAt channelId (line.store channelId (.unreliable channel)) := by
  intro other found
  rw [lookup_store_unreliable] at found
  split at found
  · cases found
    exact ⟨List.forall_mem_nil _, clean.buffer⟩
  · cases found

theorem sendsNoErr_nil : SendsNoErr [] := fun _ member => nomatch member

theorem sendsNoErr_single {packet : THPacket} (free : ErrFree packet) :
    SendsNoErr [.sendPacket packet] := by
  intro other member
  cases List.mem_singleton.mp member
  exact free

theorem sendsNoErr_mesh (surroundings : Surroundings) (lastOutActivity : Nat) :
    SendsNoErr (meshHandlePacket surroundings lastOutActivity) := by
  have seed : ErrFree seedPacket := rfl
  have see : ErrFree (seePart surroundings.sees seedPacket) :=
    (objectForKey_setObject_other seedPacket _ _ _ (by decide)).trans seed
  unfold meshHandlePacket
  split
  · split
    · exact sendsNoErr_single see
    · exact sendsNoErr_single seed
  · exact sendsNoErr_nil

section Successors
variable {surroundings : Surroundings} (writes : WritesNoErr surroundings.application)
include writes

theorem clean_passUnreliable {channel : UnreliableChannel.THUnreliableChannel}
    (clean : Clean channel) (packet : THPacket) :
    Clean (passUnreliable surroundings packet channel) := by
  have fails : ∀ err,
      SendsNoErr ((delegateOf surroundings channel).didFailWithError err) := by
    intro err
    unfold delegateOf
    split
    · exact writes.fails err
    · exact sendsNoErr_nil
  have handles : SendsNoErr ((delegateOf surroundings channel).handlePacket packet) := by
    unfold delegateOf
    split
    · exact writes.handles packet
    · exact sendsNoErr_mesh surroundings channel.lastOutActivity
  unfold passUnreliable
  split
  · exact clean_handlePacket (clean_setState clean .opened) _ packet fails handles
  · exact clean_handlePacket clean _ packet fails handles

theorem clean_newUnreliable (channelId : Nat) (type : Option Json) (packet : THPacket) :
    Clean (newUnreliable surroundings channelId type packet) := by
  have start : Clean { UnreliableChannel.initToIdentity channelId .application with
      type := type } := ⟨List.forall_mem_nil _, List.forall_mem_nil _⟩
  have fails : ∀ err, SendsNoErr (Delegate.none.didFailWithError err) :=
    fun _ => sendsNoErr_nil
  have handled := clean_handlePacket start surroundings.now packet fails sendsNoErr_nil
  exact clean_performAll (clean_setState handled .opened) _ (writes.ready _ packet)

end Successors

theorem noErr_same {before after : LineSide} (channelId : Nat) (same : after.sent = before.sent) :
    NoErrAnswer channelId before after :=
  ⟨[], by rw [same, List.append_nil], List.forall_mem_nil _⟩

theorem noErr_clean {before after : LineSide} (channelId : Nat)
    {channel : UnreliableChannel.THUnreliableChannel} (clean : Clean channel)
    (sent : after.sent = before.sent ++ channel.outbox) : NoErrAnswer channelId before after :=
  ⟨channel.outbox, sent, fun answer member _ => clean.outbox answer member⟩

theorem errPacket_answers {before after : LineSide} {channelId : Nat}
    (sent : after.sent = before.sent ++ [errPacket channelId]) :
    ¬ NoErrAnswer channelId before after := by
  rintro ⟨answers, same, free⟩
  have answered := List.append_cancel_left (same.symm.trans sent)
  have address : channelIdOf (errPacket channelId) = some channelId := rfl
  have none := free (errPacket channelId) (answered ▸ List.mem_singleton_self _) address
  cases none

/-- Where the line has another channel or none, it stays clean, and it answers
with an error exactly when it has none and the packet is neither spurious nor
typed. -/
theorem channelBranch_answers {surroundings : Surroundings} {line : LineSide} {channelId : Nat}
    (writes : WritesNoErr surroundings.application) (clean : CleanAt channelId line)
    (type : Option String) (packet : THPacket) :
    CleanAt channelId (line.channelBranch surroundings channelId type packet) ∧
      (NoErrAnswer channelId line (line.channelBranch surroundings channelId type packet) ↔
        (line.channels.lookup channelId = none → Spurious packet ∨ type.isSome = true)) := by
  unfold LineSide.channelBranch
  cases found : line.channels.lookup channelId with
  | some channel =>
      cases channel with
      | reliable channel =>
          exact ⟨cleanAt_reliable line channelId _,
            iff_of_true (noErr_same channelId rfl) fun none => nomatch none⟩
      | unreliable channel =>
          have passed := clean_passUnreliable writes (clean channel found) packet
          exact ⟨cleanAt_unreliable line channelId passed,
            iff_of_true (noErr_clean channelId passed rfl) fun none => nomatch none⟩
  | none =>
      simp only [true_implies]
      unfold LineSide.unknownChannel
      cases type with
      | none =>
          dsimp only
          split
          · rename_i spurious
            exact ⟨clean, iff_of_true (noErr_same channelId rfl) (Or.inl spurious)⟩
          · rename_i genuine
            refine ⟨clean, iff_of_false (errPacket_answers rfl) ?_⟩
            rintro (spurious | typed)
            · exact genuine spurious
            · cases typed
      | some type =>
          dsimp only
          split
          · exact ⟨cleanAt_reliable _ channelId _,
              iff_of_true (noErr_same channelId rfl) (Or.inr rfl)⟩
          · have made := clean_newUnreliable writes channelId (some (.string type)) packet
            exact ⟨cleanAt_unreliable _ channelId made,
              iff_of_true (noErr_clean channelId made rfl) (Or.inr rfl)⟩

/-! ## What holds in every state -/

structure Known (channelId : Nat) (joined : Joined) : Prop where
  guarded : Guarded joined.ends
  live : Reliable.Live joined.near
  held : joined.near.registered = true →
    joined.line.channels.lookup channelId = some (.reliable joined.near)
  clean : joined.near.registered = false → CleanAt channelId joined.line

theorem known_opening (line : LineSide) (channelId : Nat) :
    Known channelId (opening line channelId) where
  guarded := guarded_start channelId
  live := by
    intro _ halted
    rcases halted with ended | errored
    · cases ended
    · cases errored
  held _ := (lookup_store_reliable line channelId (initToIdentity channelId)).trans rfl
  clean left := nomatch left

section Steps
variable {services : Services} {channelId : Nat} {joined : Joined}
variable (known : Known channelId joined)
include known

theorem known_arrive {surroundings : Surroundings} {packet : THPacket}
    (possible : Possible channelId joined (.arrives surroundings packet)) :
    Known channelId (arrive services joined surroundings packet) := by
  obtain ⟨arrives, forChannel, writes⟩ := possible
  obtain ⟨type, _, line⟩ := @arrive_line services _ joined surroundings _ forChannel
  by_cases there : joined.near.registered = true
  · let passed := passReliable surroundings packet joined.near
    have ends : (arrive services joined surroundings packet).ends =
        Function.update joined.ends .near passed := if_pos there
    have near : (arrive services joined surroundings packet).near = passed := by
      rw [Joined.near, ends, Function.update_self]
    have stored : (arrive services joined surroundings packet).line =
        joined.line.store channelId (.reliable passed) := by
      rw [line, LineSide.channelBranch, known.held there]
      rfl
    refine ⟨?_, ?_, fun registered => ?_, fun _ => ?_⟩
    · rw [ends]
      exact guarded_pass joined.ends surroundings packet (known.live there) arrives known.guarded
    · rw [near]
      exact Reliable.live_passReliable known.live surroundings packet
    · rw [near] at registered ⊢
      rw [stored, lookup_store_reliable, if_pos registered]
    · rw [stored]
      exact cleanAt_reliable _ channelId passed
  · have gone : joined.near.registered = false := Bool.eq_false_iff.mpr there
    have ends : (arrive services joined surroundings packet).ends = joined.ends := if_neg there
    have near : (arrive services joined surroundings packet).near = joined.near :=
      congrFun ends .near
    refine ⟨ends ▸ known.guarded, near ▸ known.live, fun registered => ?_, fun _ => ?_⟩
    · exact absurd (near ▸ registered) there
    · rw [line]
      exact (channelBranch_answers (writes gone) (known.clean gone) type packet).1

theorem live_near {event : ReliableChannel.Event}
    (possible : Possible channelId joined (.near event)) :
    Reliable.Live (ReliableChannel.step joined.near event) := by
  cases event with
  | handlePacket delegate packet => exact absurd possible id
  | sendPacket packet => exact Reliable.live_sendPacket known.live packet
  | close delegate => exact Reliable.live_left (Reliable.left_close joined.near delegate)
  | setState delegate state =>
      obtain ⟨_, _, rfl⟩ := possible
      exact Reliable.live_setState joined.near delegate (by decide)
  | ackPing =>
      simp only [ReliableChannel.step, ackPing]
      split
      · exact Reliable.live_sendPacket known.live _
      · exact known.live
  | flushOut => exact known.live

omit known in
/-- Out of the table the near channel comes back no more. -/
theorem left_near {event : ReliableChannel.Event}
    (possible : Possible channelId joined (.near event)) (left : joined.near.registered = false) :
    (ReliableChannel.step joined.near event).registered = false := by
  have sends : ∀ packet, (joined.near.sendPacket packet).registered = false := by
    intro packet
    rw [registered_sendPacket]
    exact left
  cases event with
  | handlePacket delegate packet => exact absurd possible id
  | sendPacket packet => exact sends packet
  | close delegate => exact Reliable.left_close joined.near delegate
  | setState delegate state =>
      have there : joined.near.registered = true := possible.1
      rw [left] at there
      cases there
  | ackPing =>
      simp only [ReliableChannel.step, ackPing]
      split
      · exact sends _
      · exact left
  | flushOut =>
      have there : joined.near.registered = true := possible
      rw [left] at there
      cases there

theorem clean_afterCall (event : ReliableChannel.Event) :
    CleanAt channelId (afterCall channelId joined event) := by
  unfold afterCall
  split
  · exact cleanAt_reliable _ channelId _
  · rename_i gone
    split
    · intro other found
      rw [lookup_erase_same] at found
      cases found
    · exact known.clean (Bool.eq_false_iff.mpr gone)

theorem known_near {event : ReliableChannel.Event}
    (possible : Possible channelId joined (.near event)) :
    Known channelId (step services channelId joined (.near event)) := by
  let moved := ReliableChannel.step joined.near event
  have near : (step services channelId joined (.near event)).near = moved :=
    act_same ReliableChannel.step joined.ends .near event
  have allowed : ReliablePair.Possible joined.ends ⟨.near, event⟩ := by
    cases event with
    | handlePacket delegate packet => exact absurd possible id
    | setState delegate state => exact possible.2.1
    | _ => trivial
  refine ⟨guarded_act joined.ends _ allowed known.guarded, ?_, ?_, ?_⟩
  · rw [near]
    exact live_near known possible
  · rw [near]
    intro registered
    cases there : joined.near.registered with
    | true =>
        have stored : (step services channelId joined (.near event)).line =
            joined.line.store channelId (.reliable moved) := if_pos there
        rw [stored, lookup_store_reliable, if_pos registered]
    | false =>
        rw [left_near possible there] at registered
        cases registered
  · intro _
    exact clean_afterCall known event

theorem known_step {event : Event} (possible : Possible channelId joined event) :
    Known channelId (step services channelId joined event) := by
  cases event with
  | arrives surroundings packet => exact known_arrive known possible
  | near event => exact known_near known possible
  | far event =>
      have near : (step services channelId joined (.far event)).near = joined.near :=
        act_other ReliableChannel.step joined.ends .far event
      refine ⟨guarded_act joined.ends _ possible known.guarded, ?_, ?_, ?_⟩ <;> rw [near]
      · exact known.live
      · exact known.held
      · exact known.clean

/-! ## When the near end answers -/

/-- An arrival once the channel has left: it changes nothing at the near end. -/
theorem answered_closed {surroundings : Surroundings} {packet : THPacket}
    (possible : Possible channelId joined (.arrives surroundings packet))
    (gone : joined.near.registered = false) :
    Answered services channelId joined (.arrives surroundings packet) ↔
      QuietOnceClosed channelId joined (.arrives surroundings packet) := by
  obtain ⟨_, forChannel, writes⟩ := possible
  obtain ⟨type, read, line⟩ := @arrive_line services _ joined surroundings _ forChannel
  have answers := (channelBranch_answers (writes gone) (known.clean gone) type packet).2
  have near : (arrive services joined surroundings packet).near = joined.near := by
    simp [Joined.near, arrive, show (joined.ends .near).registered = false from gone]
  have silent : ∀ seq, ¬ Resent joined.near (arrive services joined surroundings packet).near
      seq := by
    rw [near]
    rintro seq ⟨sent, whole, again, member, _⟩
    rw [List.self_eq_append_right.mp whole] at member
    cases member
  simp only [Answered, QuietOnceClosed, gone, true_implies]
  rw [line, answers, read_isSome read]
  exact and_congr_right fun _ =>
    forall_congr' fun seq => ⟨fun owed wanted => silent seq (owed wanted),
      fun none wanted => absurd wanted none⟩

/-- An arrival while it is in the table. -/
theorem answered_open {surroundings : Surroundings} {packet : THPacket}
    (possible : Possible channelId joined (.arrives surroundings packet))
    (asked : AskedWhileOpen joined (.arrives surroundings packet))
    (there : joined.near.registered = true) :
    Answered services channelId joined (.arrives surroundings packet) := by
  have after : Known channelId (arrive services joined surroundings packet) :=
    known_arrive known possible
  obtain ⟨_, forChannel, _⟩ := possible
  obtain ⟨type, _, line⟩ := @arrive_line services _ joined surroundings _ forChannel
  have near : (arrive services joined surroundings packet).near =
      passReliable surroundings packet joined.near := by
    simp [Joined.near, arrive, show (joined.ends .near).registered = true from there]
  refine ⟨noErr_same channelId ?_, fun seq wanted => ?_⟩
  · rw [line, LineSide.channelBranch, known.held there]
    rfl
  · obtain ⟨current, free, stays, first⟩ := asked there seq wanted
    have held : seq ∈ joined.near.outPacketBuffer.seqs := by
      rcases wanted_held known.guarded wanted with zero | held
      · exact zero ▸ first zero
      · exact held
    have ordered : InOrder (inbound joined.near) := known.guarded.sound.ordered .near
    have filed : Filed (outbound joined.near) := known.guarded.filed
    obtain ⟨sent, whole, again, member, stamped⟩ :=
      pass_resends surroundings ordered filed wanted.1 held current free stays
    rw [← near] at whole
    refine ⟨sent, whole, again, member, stamped, fun room => ?_⟩
    have transmitted : again ∈
        (arrive services joined surroundings packet).near.history.transmitted := by
      rw [whole]
      exact List.mem_append_right _ member
    exact (after.guarded.sound.stamped .near).content room again (Or.inl transmitted) seq stamped

end Steps

/-- The near end may close at any point of the run. As long as what is asked of
it before is asked in good order, it owes nothing unanswered exactly when, once
the channel has left the table, nothing more is asked of it and nothing reaches
the line that it takes for a packet of an unknown channel. -/
theorem closing_answered_iff (services : Services) (line : LineSide) (channelId : Nat)
    (events : List Event)
    (possible : Along (step services channelId) (Possible channelId) (opening line channelId)
      events)
    (asked : Along (step services channelId) AskedWhileOpen (opening line channelId) events) :
    Along (step services channelId) (Answered services channelId) (opening line channelId)
        events ↔
      Along (step services channelId) (QuietOnceClosed channelId) (opening line channelId)
        events := by
  have kept : ∀ joined event,
      Possible channelId joined event ∧ AskedWhileOpen joined event → Known channelId joined →
        Known channelId (step services channelId joined event) :=
    fun _ _ allowed known => known_step known allowed.1
  refine along_congr_invariant kept (fun joined event allowed known => ?_) _ events
    (known_opening line channelId) ((along_and _ events).mpr ⟨possible, asked⟩)
  cases event with
  | arrives surroundings packet =>
      by_cases there : joined.near.registered = true
      · refine iff_of_true (answered_open known allowed.1 allowed.2 there) fun gone => ?_
        rw [there] at gone
        cases gone
      · exact answered_closed known allowed.1 (Bool.eq_false_iff.mpr there)
  | near event => exact Iff.rfl
  | far event => exact Iff.rfl

/-! ## Packet 1 of 3 is lost -/

def typedHello : THPacket := hello.setObject (.string "chat") "type"

def talk : List ReliableChannel.Event :=
  [.setState .none .opened, .sendPacket typedHello, .sendPacket hello]

def sentBy (events : List ReliableChannel.Event) : List THPacket :=
  (run ReliableChannel.step (initToIdentity 1) events).history.transmitted

def sentAt (events : List ReliableChannel.Event) (index : Nat) : THPacket :=
  (sentBy events).getD index .new

/-- Packet 0 makes the far end's channel; then packet 2 reaches it. -/
def farHears (events : List ReliableChannel.Event) : List ReliableChannel.Event :=
  [.handlePacket .none (sentAt events 0), .setState .none .opened,
    .handlePacket .none (sentAt events 2)]

def asksForOne (events : List ReliableChannel.Event) : THPacket := sentAt (farHears events) 0

/-- The far end's request for packet 1 reaches the near line. -/
def lostMiddle (events : List ReliableChannel.Event) : List Event :=
  events.map .near ++ (farHears events).map .far ++
    [.arrives ChannelOpening.surroundings (asksForOne events)]

/-- Packet 2 is the end, or it is another packet and the end comes later. -/
def closesEarly : List ReliableChannel.Event := talk ++ [.close .none]

def closesLate : List ReliableChannel.Event := talk ++ [.sendPacket hello]

theorem sentAt_mem {events : List ReliableChannel.Event} {index : Nat}
    (inside : index < (sentBy events).length) : sentAt events index ∈ sentBy events := by
  simp [sentAt, inside]

theorem silent_writesNoErr : WritesNoErr ChannelOpening.silent where
  fails _ := sendsNoErr_nil
  handles _ := sendsNoErr_nil
  ready _ _ := sendsNoErr_nil

/-- The request is one the far end makes, whether the near end has closed or not. -/
theorem lostMiddle_possible {last : ReliableChannel.Event}
    (kinds : last = .close .none ∨ last = .sendPacket hello) :
    Along (step ChannelOpening.services 1) (Possible 1) (opening ChannelOpening.fresh 1)
      (lostMiddle (talk ++ [last])) := by
  let events := talk ++ [last]
  have sends : 2 < (sentBy events).length := by rcases kinds with rfl | rfl <;> decide
  have awake : ¬ ((initToIdentity 1).handlePacket .none (sentAt events 0)).state.Halted := by
    rcases kinds with rfl | rfl <;> decide
  have asks : asksForOne events ∈ sentBy (farHears events) := sentAt_mem (by
    rcases kinds with rfl | rfl <;> decide)
  have addressed : channelIdOf (asksForOne events) = some 1 := by
    rcases kinds with rfl | rfl <;> decide +kernel
  have untyped : (asksForOne events).objectForKey "type" = none := by
    rcases kinds with rfl | rfl <;> decide +kernel
  have forOne : ForChannel 1 (asksForOne events) :=
    ⟨addressed, none, by rw [untyped]; rfl, fun _ _ same => by cases same⟩
  have lastly : Possible 1 (run (step ChannelOpening.services 1) (opening ChannelOpening.fresh 1)
      (talk.map .near)) (.near last) := by
    rcases kinds with rfl | rfl <;> trivial
  exact ⟨⟨rfl, by decide, rfl⟩, trivial, trivial, lastly,
    ⟨sentAt events 0, sentAt_mem (by omega), rfl, rfl⟩, awake,
    ⟨sentAt events 2, sentAt_mem sends, rfl, rfl⟩,
    ⟨⟨asksForOne events, asks, rfl, rfl⟩, forOne, fun _ => silent_writesNoErr⟩, trivial⟩

/-- Packet 1 is asked for while the channel is open. -/
theorem closing_answered_in_time :
    Along (step ChannelOpening.services 1) (Answered ChannelOpening.services 1)
      (opening ChannelOpening.fresh 1) (lostMiddle closesLate ++ [.near (.close .none)]) := by
  refine (closing_answered_iff ChannelOpening.services ChannelOpening.fresh 1 _ ?_ ?_).mpr ?_
  · exact (along_append _ _ _).mpr ⟨lostMiddle_possible (Or.inr rfl), trivial, trivial⟩
  · refine ⟨trivial, trivial, trivial, trivial, trivial, trivial, trivial,
      fun _ _ _ => ⟨Or.inl rfl, rfl, fun _ => rfl, fun _ => ?_⟩, trivial, trivial⟩
    decide
  · exact ⟨trivial, trivial, trivial, trivial, trivial, trivial, trivial,
      fun gone => Bool.noConfusion gone, trivial, trivial⟩

/-- The request for packet 1 comes after the close. It is answered with an
error, and nothing is sent again. -/
theorem request_after_close_refused :
    ¬ ∀ services line channelId events,
      Along (step services channelId) (Possible channelId) (opening line channelId) events →
        Along (step services channelId) (Answered services channelId) (opening line channelId)
          events := by
  intro answers
  obtain ⟨_, _, _, _, _, _, _, last, _⟩ :=
    answers ChannelOpening.services ChannelOpening.fresh 1 (lostMiddle closesEarly)
      (lostMiddle_possible (Or.inl rfl))
  exact errPacket_answers rfl last.1

end Telehash.ClosingChannel
