import Telehash.ReliableOutbound

/-!
The functions of a reliable channel as the single steps they take, in the order
of the source. A property of every `sendPacket:`, wherever it is called from, is
a property along these steps.
-/

namespace Telehash.ReliableSteps
open Foundation Packet PacketBuffer OrderedChain Channel ReliableChannel ReliableViews
open ReliableInbound ReliableOutbound THReliableChannel Runs

inductive Primitive where
  -- `handlePacket:` is entered
  | arrive (packet : THPacket)
  | send (packet : THPacket)
  | become (state : THChannelState)
  | deregister
  | see (packet : THPacket)
  | resend (miss : Json)
  | clear (ack : Nat)
  | adopt (packet : THPacket)
  | receive (packet : THPacket)
  | enqueue (packet : THPacket)
  | look
  | pop (packet : THPacket) (rest : List THPacketNode)
  | process (packet : THPacket)
  | flush

def clear (channel : THReliableChannel) (ack : Nat) : THReliableChannel :=
  { channel with outPacketBuffer := channel.outPacketBuffer.clearThrough ack }

def apply (channel : THReliableChannel) : Primitive → THReliableChannel
  | .arrive _ => channel
  | .send packet => channel.sendPacket packet
  | .become state => { channel with state := state }
  | .deregister => channel.deregister
  | .see packet => channel.sawSeq packet
  | .resend miss => channel.resendMissingPackets miss
  | .clear ack => clear channel ack
  | .adopt packet => channel.adoptType packet
  | .receive packet => channel.noteReceived packet
  | .enqueue packet => channel.enqueue packet
  | .look => channel.lookForMissing
  | .pop packet rest => channel.pop packet rest
  | .process packet => channel.noteProcessed packet
  | .flush => channel.flushOut

def endedCall : Call → Primitive
  | .sendPacket packet => .send packet
  | .close => .deregister

def endedSteps (delegate : Delegate) : List Primitive :=
  .become .ended :: (delegate.didChangeStateTo .ended).map endedCall

def closeSteps (channel : THReliableChannel) (delegate : Delegate) : List Primitive :=
  if channel.state = .opening ∨ channel.state = .ended then [.deregister]
  else .send endPacket :: (endedSteps delegate ++ [.deregister])

def callSteps (delegate : Delegate) (channel : THReliableChannel) : Call → List Primitive
  | .sendPacket packet => [.send packet]
  | .close => closeSteps channel delegate

def callsSteps (delegate : Delegate) : THReliableChannel → List Call → List Primitive
  | _, [] => []
  | channel, call :: rest =>
      callSteps delegate channel call ++ callsSteps delegate (perform delegate channel call) rest

def setStateSteps (channel : THReliableChannel) (delegate : Delegate) (state : THChannelState) :
    List Primitive :=
  .become state :: callsSteps delegate { channel with state := state }
    (delegate.didChangeStateTo state)

def superSteps (channel : THReliableChannel) (delegate : Delegate) (packet : THPacket) :
    List Primitive :=
  match packet.objectForKey "err" with
  | none => []
  | some err =>
      callsSteps delegate channel (delegate.didFailWithError err) ++
        (setStateSteps (channel.performAll delegate (delegate.didFailWithError err)) delegate
          .errored ++ [.deregister])

def missSteps (packet : THPacket) : List Primitive :=
  match packet.objectForKey "miss" with
  | none => []
  | some miss => [.resend miss]

def ackSteps (packet : THPacket) : List Primitive :=
  match ackOf packet with
  | none => []
  | some ack => [.clear ack]

def outOfOrderSteps (channel : THReliableChannel) : List Primitive :=
  if 0 < (channel.missing.getD []).length then [.send .new] else []

def deliverSteps (delegate : Delegate) : List THPacketNode → THReliableChannel → List Primitive
  | [], _ => []
  | front :: rest, channel =>
      let looked := channel.lookForMissing
      if front.seq ≠ channel.nextExpectedSequence then .look :: outOfOrderSteps looked
      else
        let handing := callsSteps delegate (looked.pop front.packet rest)
          (delegate.handlePacket front.packet)
        let handed := looked.handToDelegate delegate front.packet rest
        .look :: .pop front.packet rest :: (handing ++ .process front.packet ::
          if handed.state ≠ .ended ∧ isEnd front.packet then
            endedSteps delegate ++ closeSteps (handed.setEnded delegate) delegate
          else deliverSteps delegate rest handed)

/-- `handlePacket:` up to the incoming buffer. -/
def admitSteps (channel : THReliableChannel) (delegate : Delegate) (packet : THPacket) :
    List Primitive :=
  superSteps channel delegate packet ++
    .see packet :: (missSteps packet ++ (ackSteps packet ++
      [.adopt packet, .receive packet, .enqueue packet]))

def admitted (channel : THReliableChannel) (delegate : Delegate) (packet : THPacket) :
    THReliableChannel :=
  ((channel.beforeAdmission delegate packet).noteReceived packet).enqueue packet

def handleSteps (channel : THReliableChannel) (delegate : Delegate) (packet : THPacket) :
    List Primitive :=
  .arrive packet :: (admitSteps channel delegate packet ++
    deliverSteps delegate (admitted channel delegate packet).inPacketBuffer.chain
      (admitted channel delegate packet))

def pingSteps (channel : THReliableChannel) : List Primitive :=
  if channel.lastAck < channel.lastProcessed then [.send .new] else []

def steps (channel : THReliableChannel) : Event → List Primitive
  | .handlePacket delegate packet => handleSteps channel delegate packet
  | .sendPacket packet => [.send packet]
  | .close delegate => closeSteps channel delegate
  | .setState delegate state => setStateSteps channel delegate state
  | .ackPing => pingSteps channel
  | .flushOut => [.flush]

/-- What went to `toIdentity` in between. -/
def handedOn (before after : THReliableChannel) : List THPacket :=
  after.history.transmitted.drop before.history.transmitted.length

/-- All the steps of a run. -/
def record : THReliableChannel → List Event → List Primitive
  | _, [] => []
  | channel, event :: rest => steps channel event ++ record (step channel event) rest

/-! ## The steps of a function lead where the function leads -/

theorem run_endedCalls (channel : THReliableChannel) (calls : List Call) :
    run apply channel (calls.map endedCall) = calls.foldl performEnded channel := by
  induction calls generalizing channel with
  | nil => rfl
  | cons call rest ih => cases call <;> exact ih _

theorem run_endedSteps (channel : THReliableChannel) (delegate : Delegate) :
    run apply channel (endedSteps delegate) = channel.setEnded delegate :=
  run_endedCalls _ _

theorem run_closeSteps (channel : THReliableChannel) (delegate : Delegate) :
    run apply channel (closeSteps channel delegate) = channel.close delegate := by
  unfold closeSteps close
  split
  · rfl
  · rw [run_cons, run_append, run_endedSteps]
    rfl

theorem run_callSteps (delegate : Delegate) (channel : THReliableChannel) (call : Call) :
    run apply channel (callSteps delegate channel call) = perform delegate channel call := by
  cases call with
  | sendPacket packet => rfl
  | close => exact run_closeSteps channel delegate

theorem run_callsSteps (delegate : Delegate) (channel : THReliableChannel) (calls : List Call) :
    run apply channel (callsSteps delegate channel calls) = channel.performAll delegate calls := by
  induction calls generalizing channel with
  | nil => rfl
  | cons call rest ih =>
      rw [callsSteps, run_append, run_callSteps, ih]
      rfl

theorem run_setStateSteps (channel : THReliableChannel) (delegate : Delegate)
    (state : THChannelState) :
    run apply channel (setStateSteps channel delegate state) = channel.setState delegate state :=
  run_callsSteps delegate _ _

theorem run_superSteps (channel : THReliableChannel) (delegate : Delegate) (packet : THPacket) :
    run apply channel (superSteps channel delegate packet) =
      channel.superHandlePacket delegate packet := by
  unfold superSteps superHandlePacket
  cases packet.objectForKey "err" with
  | none => rfl
  | some err =>
      simp only [run_append, run_callsSteps, run_setStateSteps]
      rfl

theorem run_missSteps (channel : THReliableChannel) (packet : THPacket) :
    run apply channel (missSteps packet) = channel.handleMiss packet := by
  unfold missSteps handleMiss
  cases packet.objectForKey "miss" <;> rfl

theorem run_ackSteps (channel : THReliableChannel) (packet : THPacket) :
    run apply channel (ackSteps packet) = channel.handleAck packet := by
  unfold ackSteps handleAck
  cases ackOf packet <;> rfl

theorem run_outOfOrderSteps (channel : THReliableChannel) :
    run apply channel (outOfOrderSteps channel) = channel.outOfOrder := by
  unfold outOfOrderSteps outOfOrder
  split <;> rfl

theorem run_handing (channel : THReliableChannel) (delegate : Delegate) (front : THPacketNode)
    (rest : List THPacketNode) :
    apply (run apply (channel.pop front.packet rest) (callsSteps delegate
        (channel.pop front.packet rest) (delegate.handlePacket front.packet)))
      (.process front.packet) = channel.handToDelegate delegate front.packet rest := by
  rw [run_callsSteps]
  rfl

theorem run_deliverSteps (delegate : Delegate) (nodes : List THPacketNode)
    (channel : THReliableChannel) :
    run apply channel (deliverSteps delegate nodes channel) = deliver delegate nodes channel := by
  induction nodes generalizing channel with
  | nil => rfl
  | cons front rest ih =>
      unfold deliverSteps deliver
      by_cases expected : front.seq = channel.nextExpectedSequence
      · simp only [expected, ne_eq, not_true_eq_false, ↓reduceIte, run_cons, run_append]
        have handing := run_handing channel.lookForMissing delegate front rest
        simp only [apply] at handing ⊢
        rw [handing]
        split
        · rw [run_append, run_endedSteps, run_closeSteps]
        · exact ih _
      · simp only [ne_eq, expected, not_false_eq_true, ↓reduceIte, run_cons]
        exact run_outOfOrderSteps _

theorem run_admitSteps (channel : THReliableChannel) (delegate : Delegate) (packet : THPacket) :
    run apply channel (admitSteps channel delegate packet) = admitted channel delegate packet := by
  unfold admitSteps
  rw [run_append, run_superSteps, run_cons, run_append, run_missSteps, run_append, run_ackSteps]
  rfl

theorem run_handleSteps (channel : THReliableChannel) (delegate : Delegate) (packet : THPacket) :
    run apply channel (handleSteps channel delegate packet) =
      channel.handlePacket delegate packet := by
  unfold handleSteps
  rw [run_cons, run_append]
  simp only [apply]
  rw [run_admitSteps, run_deliverSteps]
  rfl

theorem run_steps (channel : THReliableChannel) (event : Event) :
    run apply channel (steps channel event) = step channel event := by
  cases event with
  | handlePacket delegate packet => exact run_handleSteps channel delegate packet
  | sendPacket packet => rfl
  | close delegate => exact run_closeSteps channel delegate
  | setState delegate state => exact run_setStateSteps channel delegate state
  | ackPing =>
      simp only [steps, pingSteps, step, ackPing]
      split <;> rfl
  | flushOut => rfl

/-- The record of a run leads where the run leads. -/
theorem run_record (channel : THReliableChannel) (events : List Event) :
    run apply channel (record channel events) = run step channel events := by
  induction events generalizing channel with
  | nil => rfl
  | cons event rest ih =>
      rw [record, run_append, run_steps, ih]
      rfl

theorem record_append (channel : THReliableChannel) (before after : List Event) :
    record channel (before ++ after) =
      record channel before ++ record (run step channel before) after := by
  induction before generalizing channel with
  | nil => rfl
  | cons event rest ih => simp only [List.cons_append, record, ih, List.append_assoc, run_cons]

/-- What holds along the steps of each event holds along the record. -/
theorem along_record {property : THReliableChannel → Primitive → Prop}
    (channel : THReliableChannel) (events : List Event) :
    Along apply property channel (record channel events) ↔
      Along step (fun reached event => Along apply property reached (steps reached event))
        channel events := by
  induction events generalizing channel with
  | nil => exact Iff.rfl
  | cons event rest ih => rw [record, along_append, run_steps, ih, Along]

/-! ## What the steps find -/

/-- What a delegate's calls come down to. -/
def Called : Primitive → Prop
  | .send _ => True
  | .deregister => True
  | .become state => state.Halted
  | _ => False

theorem called_endedSteps (delegate : Delegate) :
    ∀ primitive ∈ endedSteps delegate, Called primitive := by
  intro primitive member
  rcases List.mem_cons.mp member with rfl | performed
  · exact Or.inl rfl
  · obtain ⟨call, _, rfl⟩ := List.mem_map.mp performed
    cases call <;> trivial

theorem called_closeSteps (channel : THReliableChannel) (delegate : Delegate) :
    ∀ primitive ∈ closeSteps channel delegate, Called primitive := by
  intro primitive member
  unfold closeSteps at member
  split at member
  · rw [List.mem_singleton.mp member]
    trivial
  · rcases List.mem_cons.mp member with rfl | later
    · trivial
    · rcases List.mem_append.mp later with ended | left
      · exact called_endedSteps delegate primitive ended
      · rw [List.mem_singleton.mp left]
        trivial

theorem called_callsSteps (delegate : Delegate) (channel : THReliableChannel)
    (calls : List Call) : ∀ primitive ∈ callsSteps delegate channel calls, Called primitive := by
  induction calls generalizing channel with
  | nil => exact List.forall_mem_nil _
  | cons call rest ih =>
      intro primitive member
      rcases List.mem_append.mp member with first | later
      · cases call with
        | sendPacket packet =>
            rw [List.mem_singleton.mp first]
            trivial
        | close => exact called_closeSteps channel delegate primitive first
      · exact ih _ primitive later

theorem called_superSteps (channel : THReliableChannel) (delegate : Delegate)
    (packet : THPacket) : ∀ primitive ∈ superSteps channel delegate packet, Called primitive := by
  intro primitive member
  unfold superSteps at member
  split at member
  · cases member
  · rcases List.mem_append.mp member with failing | errored
    · exact called_callsSteps _ _ _ primitive failing
    · rcases List.mem_append.mp errored with moved | left
      · rcases List.mem_cons.mp moved with rfl | calling
        · exact Or.inr rfl
        · exact called_callsSteps _ _ _ primitive calling
      · rw [List.mem_singleton.mp left]
        trivial

/-- The steps of the delivery loop. -/
def Delivering : Primitive → Prop
  | .look => True
  | .pop _ _ => True
  | .process _ => True
  | primitive => Called primitive

theorem delivering_called {primitive : Primitive} (called : Called primitive) :
    Delivering primitive := by
  cases primitive <;> trivial

theorem delivering_deliverSteps (delegate : Delegate) (nodes : List THPacketNode)
    (channel : THReliableChannel) :
    ∀ primitive ∈ deliverSteps delegate nodes channel, Delivering primitive := by
  induction nodes generalizing channel with
  | nil => exact List.forall_mem_nil _
  | cons front rest ih =>
      intro primitive member
      unfold deliverSteps at member
      split at member
      · rcases List.mem_cons.mp member with rfl | sending
        · trivial
        · unfold outOfOrderSteps at sending
          split at sending
          · rw [List.mem_singleton.mp sending]
            trivial
          · cases sending
      · rcases List.mem_cons.mp member with rfl | member
        · trivial
        rcases List.mem_cons.mp member with rfl | member
        · trivial
        rcases List.mem_append.mp member with handing | member
        · exact delivering_called (called_callsSteps _ _ _ primitive handing)
        rcases List.mem_cons.mp member with rfl | member
        · trivial
        split at member
        · rcases List.mem_append.mp member with ended | closing
          · exact delivering_called (called_endedSteps _ primitive ended)
          · exact delivering_called (called_closeSteps _ _ primitive closing)
        · exact ih _ primitive member

/-- What the delivery loop knows at its own steps, all others being free. -/
def Orderly (channel : THReliableChannel) : Primitive → Prop
  | .look => InOrder (inbound channel) ∧ channel.inPacketBuffer.chain ≠ []
  | .pop packet rest => ∃ front, channel.inPacketBuffer.chain = front :: rest ∧
      front.packet = packet ∧ front.seq = channel.nextExpectedSequence
  | .process packet => ∃ seq, seqOf packet = some seq ∧ channel.nextExpectedSequence = seq ∧
      channel.history.delivered.length = seq + 1 ∧ channel.lastProcessed = seq - 1
  | _ => True

theorem orderly_called {channel : THReliableChannel} {primitive : Primitive}
    (called : Called primitive) : Orderly channel primitive := by
  cases primitive <;> trivial

theorem orderly_calls (channel : THReliableChannel) (primitives : List Primitive)
    (called : ∀ primitive ∈ primitives, Called primitive) :
    Along apply Orderly channel primitives :=
  along_everywhere channel primitives fun primitive member _ =>
    orderly_called (called primitive member)

theorem orderly_deliverSteps (delegate : Delegate) (nodes : List THPacketNode)
    (channel : THReliableChannel) (held : channel.inPacketBuffer.chain = nodes)
    (ordered : InOrder (inbound channel)) :
    Along apply Orderly channel (deliverSteps delegate nodes channel) := by
  induction nodes generalizing channel with
  | nil => trivial
  | cons front rest ih =>
      have filled : channel.inPacketBuffer.chain ≠ [] := by simp [held]
      unfold deliverSteps
      by_cases expected : front.seq = channel.nextExpectedSequence
      · simp only [expected, ne_eq, not_true_eq_false, ↓reduceIte]
        let looked := channel.lookForMissing
        let popped := looked.pop front.packet rest
        let handed := looked.handToDelegate delegate front.packet rest
        obtain ⟨number, room⟩ := front_seq ordered held expected
        have view : inbound handed = hand (inbound channel) front rest :=
          inbound_handToDelegate looked delegate front rest
        have called := called_callsSteps delegate popped (delegate.handlePacket front.packet)
        have processing : Orderly (run apply popped (callsSteps delegate popped
            (delegate.handlePacket front.packet))) (.process front.packet) := by
          -- whatever the delegate calls, the incoming half is the popped one
          have untouched := inbound_performAll popped delegate (delegate.handlePacket front.packet)
          have delivered := congrArg Inbound.delivered untouched
          have processed := congrArg Inbound.lastProcessed untouched
          have next := congrArg Inbound.nextExpectedSequence untouched
          refine ⟨front.seq, ordered.buffered front ?_, ?_, ?_, ?_⟩
          · rw [show (inbound channel).inPacketBuffer.chain = front :: rest from held]
            exact List.mem_cons_self
          · rw [run_callsSteps, expected]
            exact next
          · rw [run_callsSteps, show (popped.performAll delegate
              (delegate.handlePacket front.packet)).history.delivered = _ from delivered, number]
            simp [popped, looked, pop, lookForMissing, inbound]
          · rw [run_callsSteps, show (popped.performAll delegate
              (delegate.handlePacket front.packet)).lastProcessed = _ from processed, number]
            exact ordered.last
        refine ⟨⟨ordered, filled⟩, ⟨front, held, rfl, expected⟩, ?_⟩
        refine (along_append _ _ _).mpr ⟨orderly_calls _ _ called, processing, ?_⟩
        change Along apply Orderly (apply (run apply popped (callsSteps delegate popped
          (delegate.handlePacket front.packet))) (.process front.packet)) _
        rw [run_handing looked delegate front rest]
        split
        · refine (along_append _ _ _).mpr ⟨orderly_calls _ _ (called_endedSteps delegate), ?_⟩
          exact orderly_calls _ _ (called_closeSteps _ delegate)
        · refine ih handed ?_ ?_
          · exact congrArg (fun seen => seen.inPacketBuffer.chain) view
          · rw [view]
            exact inOrder_hand ordered held expected
      · simp only [ne_eq, expected, not_false_eq_true, ↓reduceIte]
        refine ⟨⟨ordered, filled⟩, ?_⟩
        unfold outOfOrderSteps
        split
        · exact ⟨trivial, trivial⟩
        · trivial

theorem mem_missSteps {packet : THPacket} {primitive : Primitive} :
    primitive ∈ missSteps packet ↔
      ∃ miss, packet.objectForKey "miss" = some miss ∧ primitive = .resend miss := by
  unfold missSteps
  split <;> simp_all

theorem mem_ackSteps {packet : THPacket} {primitive : Primitive} :
    primitive ∈ ackSteps packet ↔ ∃ ack, ackOf packet = some ack ∧ primitive = .clear ack := by
  unfold ackSteps
  split <;> simp_all

theorem orderly_admitSteps (channel : THReliableChannel) (delegate : Delegate)
    (packet : THPacket) : Along apply Orderly channel (admitSteps channel delegate packet) := by
  apply along_everywhere
  intro primitive member reached
  rcases List.mem_append.mp member with failing | arriving
  · exact orderly_called (called_superSteps channel delegate packet primitive failing)
  · simp only [List.mem_cons, List.mem_append, mem_missSteps, mem_ackSteps, List.not_mem_nil,
      or_false] at arriving
    rcases arriving with rfl | ⟨_, _, rfl⟩ | ⟨_, _, rfl⟩ | rfl | rfl | rfl <;> trivial

theorem orderly_steps (channel : THReliableChannel) (event : Event)
    (ordered : InOrder (inbound channel)) :
    Along apply Orderly channel (steps channel event) := by
  cases event with
  | handlePacket delegate packet =>
      refine ⟨trivial, (along_append _ _ _).mpr ⟨orderly_admitSteps channel delegate packet, ?_⟩⟩
      have reached : run apply channel (admitSteps channel delegate packet) =
          admitted channel delegate packet := run_admitSteps channel delegate packet
      have view : inbound (admitted channel delegate packet) = receive (inbound channel) packet :=
        inbound_admitted channel delegate packet
      simp only [apply]
      rw [reached]
      refine orderly_deliverSteps delegate _ _ rfl ?_
      rw [view]
      exact inOrder_receive ordered packet
  | sendPacket packet => exact ⟨trivial, trivial⟩
  | close delegate => exact orderly_calls _ _ (called_closeSteps channel delegate)
  | setState delegate state =>
      exact ⟨trivial, orderly_calls _ _ (called_callsSteps delegate _ _)⟩
  | ackPing =>
      simp only [steps, pingSteps]
      split <;> simp [Along, Orderly]
  | flushOut => exact ⟨trivial, trivial⟩

/-- The record of a run from a channel in order. -/
theorem orderly_record (channel : THReliableChannel) (events : List Event)
    (ordered : InOrder (inbound channel)) :
    Along apply Orderly channel (record channel events) := by
  rw [along_record]
  exact along_invariant (fun reached event _ kept => inOrder_step reached event kept)
    (fun reached event _ kept => orderly_steps reached event kept) channel events ordered
    (along_true channel events)

section Outgoing
variable {property : Outbound → Prop}

/-- The rule of the outgoing half at a single step. -/
theorem outward_apply (outward : Outward property) (channel : THReliableChannel)
    (primitive : Primitive) (orderly : Orderly channel primitive)
    (holds : property (outbound channel))
    (clears : ∀ ack, primitive = .clear ack → property (outbound (clear channel ack)))
    (moves : ∀ state, primitive = .become state →
      property { outbound channel with state := state }) :
    property (outbound (apply channel primitive)) := by
  cases primitive with
  | send packet => exact outward.sends channel packet holds
  | become state => exact moves state rfl
  | resend miss => exact outward.resends channel miss holds
  | clear ack => exact clears ack rfl
  | enqueue packet =>
      obtain ⟨_, changed⟩ := enqueue_eq channel packet
      simp only [apply, changed]
      exact holds
  | process packet =>
      obtain ⟨seq, stamped, _, _, last⟩ := orderly
      have above : channel.lastProcessed ≤ seq := by omega
      simp only [apply, noteProcessed, stamped]
      exact outward.proceeds (outbound channel) seq above holds
  | flush => exact outward.flushes channel holds
  | arrive | deregister | see | adopt | receive | look | pop => exact holds

end Outgoing

theorem passed_grows (channel : THReliableChannel) (primitive : Primitive) :
    channel.history.passed.length ≤ (apply channel primitive).history.passed.length := by
  cases primitive with
  | send packet =>
      have records := (records_outward channel.history.passed []).sends channel packet
        ⟨List.prefix_rfl, List.nil_prefix⟩
      exact records.passed.length_le
  | enqueue packet =>
      obtain ⟨_, changed⟩ := enqueue_eq channel packet
      simp only [apply, changed, Nat.le_refl]
  | process packet =>
      obtain ⟨_, _, changed⟩ := noteProcessed_eq channel packet
      simp only [apply, changed, Nat.le_refl]
  | arrive | become | deregister | see | resend | clear | adopt | receive | look | pop | flush =>
      exact Nat.le_refl _

/-! ## Changes of state -/

/-- Inside a function the state only ever becomes a final one. -/
def Settles : Primitive → Prop
  | .become state => state.Halted
  | _ => True

theorem settles_called {primitive : Primitive} (called : Called primitive) : Settles primitive := by
  cases primitive <;> trivial

theorem settles_deliverSteps (delegate : Delegate) (nodes : List THPacketNode)
    (channel : THReliableChannel) :
    ∀ primitive ∈ deliverSteps delegate nodes channel, Settles primitive := by
  intro primitive member
  have delivering := delivering_deliverSteps delegate nodes channel primitive member
  cases primitive <;> trivial

theorem settles_handleSteps (channel : THReliableChannel) (delegate : Delegate)
    (packet : THPacket) :
    ∀ primitive ∈ handleSteps channel delegate packet, Settles primitive := by
  intro primitive member
  rcases List.mem_cons.mp member with rfl | member
  · trivial
  rcases List.mem_append.mp member with admitting | delivering
  · rcases List.mem_append.mp admitting with failing | arriving
    · exact settles_called (called_superSteps channel delegate packet primitive failing)
    · simp only [List.mem_cons, List.mem_append, mem_missSteps, mem_ackSteps, List.not_mem_nil,
        or_false] at arriving
      rcases arriving with rfl | ⟨_, _, rfl⟩ | ⟨_, _, rfl⟩ | rfl | rfl | rfl <;> trivial
  · exact settles_deliverSteps _ _ _ primitive delivering

/-- A halted channel stays halted. -/
def Lasting (channel : THReliableChannel) : Primitive → Prop
  | .become state => channel.state.Halted → state.Halted
  | _ => True

theorem lasting_settles {channel : THReliableChannel} {primitive : Primitive}
    (settles : Settles primitive) : Lasting channel primitive := by
  cases primitive <;> first | trivial | exact fun _ => settles

theorem lasting_settling (channel : THReliableChannel) (primitives : List Primitive)
    (settling : ∀ primitive ∈ primitives, Settles primitive) :
    Along apply Lasting channel primitives :=
  along_everywhere channel primitives fun primitive member _ =>
    lasting_settles (settling primitive member)

theorem lasting_steps (channel : THReliableChannel) (event : Event)
    (allowed : NoRevival channel event) : Along apply Lasting channel (steps channel event) := by
  cases event with
  | handlePacket delegate packet =>
      exact lasting_settling _ _ (settles_handleSteps channel delegate packet)
  | sendPacket packet => exact ⟨trivial, trivial⟩
  | close delegate =>
      exact lasting_settling _ _ fun primitive member =>
        settles_called (called_closeSteps channel delegate primitive member)
  | setState delegate state =>
      refine ⟨fun halted => absurd halted allowed, lasting_settling _ _ fun primitive member => ?_⟩
      exact settles_called (called_callsSteps delegate _ _ primitive member)
  | ackPing =>
      simp only [steps, pingSteps]
      split <;> simp [Along, Lasting]
  | flushOut => exact ⟨trivial, trivial⟩

theorem stamped_apply (channel : THReliableChannel) (primitive : Primitive)
    (orderly : Orderly channel primitive) (lasting : Lasting channel primitive)
    (stamped : Stamped (outbound channel)) : Stamped (outbound (apply channel primitive)) := by
  refine outward_apply stamped_outward channel primitive orderly stamped
    (fun ack _ => stamped_clear stamped ack) ?_
  rintro state rfl
  refine ⟨stamped.acked, stamped.sorted, stamped.acks, fun alive => ?_, stamped.content⟩
  exact stamped.sequence fun halted => alive (lasting halted)

theorem lasting_record (channel : THReliableChannel) (events : List Event)
    (allowed : Along step NoRevival channel events) :
    Along apply Lasting channel (record channel events) := by
  rw [along_record]
  exact along_mono lasting_steps channel events allowed

end Telehash.ReliableSteps
