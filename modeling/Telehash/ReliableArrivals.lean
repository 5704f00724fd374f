import Telehash.ReliableInbound

/-!
Numbered packets on a channel whose delegate only sends. The packets 0 to
n - 1 arrive in some order, some of them more than once, and none of them ends
the channel or fails it. Which orders get all of them handed over is a question
about the list of numbers alone.
-/

namespace Telehash.ReliableArrivals
open Foundation Packet PacketBuffer OrderedChain Channel ReliableChannel ReliableViews
open ReliableInbound Runs THReliableChannel

/-! ## Orders of arrival -/

/-- How many of the first numbers, up to the count, are there from 0 on. -/
def leading (seen : List Nat) : Nat → Nat
  | 0 => 0
  | count + 1 =>
      if leading seen count = count ∧ count ∈ seen then count + 1 else leading seen count

/-- No number arrives again right after the run from 0 on has reached it, until
the run is complete. -/
def NeverStale (count : Nat) : (seen arrivals : List Nat) → Prop
  | _, [] => True
  | seen, seq :: rest =>
      ¬ (seq + 1 = leading seen count ∧ leading seen count < count) ∧
        NeverStale count (seen ++ [seq]) rest

instance neverStaleDecidable (count : Nat) :
    (seen arrivals : List Nat) → Decidable (NeverStale count seen arrivals)
  | _, [] => inferInstanceAs (Decidable True)
  | seen, seq :: rest =>
      have := neverStaleDecidable count (seen ++ [seq]) rest
      inferInstanceAs (Decidable (¬ (seq + 1 = leading seen count ∧ leading seen count < count) ∧
        NeverStale count (seen ++ [seq]) rest))

/-- The run reaches a count when everything below is there and it is not. -/
theorem leading_eq {seen : List Nat} {reached count : Nat} (within : reached ≤ count)
    (there : ∀ seq < reached, seq ∈ seen) (stops : reached < count → reached ∉ seen) :
    leading seen count = reached := by
  induction count generalizing reached with
  | zero => exact (Nat.le_zero.mp within).symm
  | succ count ih =>
      unfold leading
      rcases Nat.lt_or_eq_of_le within with less | rfl
      · have before :=
          ih (Nat.le_of_lt_succ less) there fun below => stops (Nat.lt_succ_of_lt below)
        rw [before]
        split
        · rename_i next
          obtain ⟨same, member⟩ := next
          exact absurd (same ▸ member) (stops less)
        · rfl
      · have before := ih (Nat.le_refl count) (fun seq below => there seq (Nat.lt_succ_of_lt below))
          fun below => absurd below (Nat.lt_irrefl count)
        simp [before, there count (Nat.lt_succ_self count)]

theorem leading_complete {seen : List Nat} {count : Nat} (there : ∀ seq < count, seq ∈ seen) :
    leading seen count = count :=
  leading_eq (Nat.le_refl count) there fun below => absurd below (Nat.lt_irrefl count)

/-- Once the run is complete nothing can go wrong any more. -/
theorem neverStale_complete {seen : List Nat} {count : Nat} (arrivals : List Nat)
    (there : ∀ seq < count, seq ∈ seen) : NeverStale count seen arrivals := by
  induction arrivals generalizing seen with
  | nil => trivial
  | cons seq rest ih =>
      constructor
      · rw [leading_complete there]
        exact fun stale => Nat.lt_irrefl count stale.2
      · exact ih fun seq below => List.mem_append_left _ (there seq below)

/-! ## A delegate that only sends -/

def OnlySend (calls : List Call) : Prop := ∀ call ∈ calls, ∃ packet, call = .sendPacket packet

structure Sender (delegate : Delegate) : Prop where
  fails : ∀ err, OnlySend (delegate.didFailWithError err)
  changes : ∀ state, OnlySend (delegate.didChangeStateTo state)
  handles : ∀ packet, OnlySend (delegate.handlePacket packet)

theorem sender_none : Sender .none := by
  constructor <;>
    · intro _ call member
      cases member

/-- The channel is in the state and in the table, and nothing in its buffer ends it. -/
structure Steady (state : THChannelState) (channel : THReliableChannel) : Prop where
  state : channel.state = state
  registered : channel.registered = true
  noEnd : ∀ node ∈ channel.inPacketBuffer.chain, isEnd node.packet = false

section Steadiness
variable {state : THChannelState} {channel : THReliableChannel}

theorem steady_sendPacket (steady : Steady state channel) (packet : THPacket) :
    Steady state (channel.sendPacket packet) := by
  have buffer := congrArg Inbound.inPacketBuffer (inbound_sendPacket channel packet)
  refine ⟨?_, ?_, ?_⟩
  · rw [state_sendPacket]
    exact steady.state
  · rw [registered_sendPacket]
    exact steady.registered
  · rw [show (channel.sendPacket packet).inPacketBuffer = channel.inPacketBuffer from buffer]
    exact steady.noEnd

theorem steady_performAll (steady : Steady state channel) (delegate : Delegate) {calls : List Call}
    (sends : OnlySend calls) : Steady state (channel.performAll delegate calls) := by
  induction calls generalizing channel with
  | nil => exact steady
  | cons call rest ih =>
      obtain ⟨packet, rfl⟩ := sends call List.mem_cons_self
      exact ih (steady_sendPacket steady packet) fun other member =>
        sends other (List.mem_cons_of_mem _ member)

theorem steady_setState {before : THChannelState} (steady : Steady before channel)
    {delegate : Delegate} (sender : Sender delegate) (state : THChannelState) :
    Steady state (channel.setState delegate state) := by
  have moved : Steady state { channel with state := state } :=
    ⟨rfl, steady.registered, steady.noEnd⟩
  exact steady_performAll moved delegate (sender.changes state)

theorem steady_beforeAdmission (steady : Steady state channel) (delegate : Delegate)
    {packet : THPacket} (sound : packet.objectForKey "err" = none) :
    Steady state (channel.beforeAdmission delegate packet) := by
  have unfailed : channel.superHandlePacket delegate packet = channel := by
    rw [superHandlePacket, sound]
  obtain ⟨_, _, _, _, changed⟩ := beforeAdmission_eq channel delegate packet
  rw [changed, unfailed]
  exact ⟨steady.state, steady.registered, steady.noEnd⟩

theorem steady_enqueue (steady : Steady state channel) (sorted : Sorted channel.inPacketBuffer)
    {packet : THPacket} (goesOn : isEnd packet = false) :
    Steady state (channel.enqueue packet) := by
  unfold enqueue
  split
  · exact steady
  · split
    · refine ⟨steady.state, steady.registered, ?_⟩
      intro node member
      rcases (mem_push sorted packet node).mp member with old | ⟨rfl, _⟩
      · exact steady.noEnd node old
      · exact goesOn
    · exact steady

theorem steady_deliver {delegate : Delegate} (sender : Sender delegate)
    (nodes : List THPacketNode) (held : channel.inPacketBuffer.chain = nodes)
    (steady : Steady state channel) : Steady state (deliver delegate nodes channel) := by
  induction nodes generalizing channel with
  | nil => exact steady
  | cons front rest ih =>
      have looked : Steady state channel.lookForMissing :=
        ⟨steady.state, steady.registered, steady.noEnd⟩
      have goesOn : isEnd front.packet = false :=
        steady.noEnd front (by rw [held]; exact List.mem_cons_self)
      unfold deliver
      dsimp only
      split
      · unfold outOfOrder
        split
        · exact steady_sendPacket looked _
        · exact looked
      · have popped : Steady state (channel.lookForMissing.pop front.packet rest) := by
          refine ⟨steady.state, steady.registered, ?_⟩
          intro node member
          exact steady.noEnd node (by rw [held]; exact List.mem_cons_of_mem _ member)
        have performed := steady_performAll popped delegate (sender.handles front.packet)
        have handed : Steady state
            (channel.lookForMissing.handToDelegate delegate front.packet rest) := by
          obtain ⟨_, _, handed⟩ :=
            handToDelegate_eq channel.lookForMissing delegate front.packet rest
          rw [handed]
          exact ⟨performed.state, performed.registered, performed.noEnd⟩
        have chain : (channel.lookForMissing.handToDelegate delegate front.packet
            rest).inPacketBuffer.chain = rest := by
          have view := inbound_handToDelegate channel.lookForMissing delegate front rest
          rw [show
            (channel.lookForMissing.handToDelegate delegate front.packet rest).inPacketBuffer =
            ⟨rest⟩ from congrArg Inbound.inPacketBuffer view]
        simp only [goesOn, Bool.false_eq_true, and_false, ↓reduceIte]
        exact ih chain handed

theorem steady_handlePacket (steady : Steady state channel) (ordered : InOrder (inbound channel))
    {delegate : Delegate} (sender : Sender delegate) {packet : THPacket}
    (sound : packet.objectForKey "err" = none) (goesOn : isEnd packet = false) :
    Steady state (channel.handlePacket delegate packet) := by
  have before := steady_beforeAdmission steady delegate sound
  have sorted : Sorted (channel.beforeAdmission delegate packet).inPacketBuffer := by
    rw [show (channel.beforeAdmission delegate packet).inPacketBuffer = channel.inPacketBuffer from
      congrArg Inbound.inPacketBuffer (inbound_beforeAdmission channel delegate packet)]
    exact ordered.sorted
  have noted : Steady state ((channel.beforeAdmission delegate packet).noteReceived packet) :=
    ⟨before.state, before.registered, before.noEnd⟩
  exact steady_deliver sender _ rfl (steady_enqueue noted sorted goesOn)

end Steadiness

/-! ## Which orders are handed over whole -/

/-- One of the packets below the count arrives, or the application sends. -/
def Calm (count : Nat) : Event → Prop
  | .handlePacket delegate packet =>
      Sender delegate ∧ packet.objectForKey "err" = none ∧ isEnd packet = false ∧
        ∃ seq < count, seqOf packet = some seq
  | .sendPacket _ => True
  | .close _ => False
  | .setState delegate state => Sender delegate ∧ state = .opened
  | .ackPing => True
  | .flushOut => True

def numberOf : Event → Option Nat
  | .handlePacket _ packet => seqOf packet
  | _ => none

def arrivals (events : List Event) : List Nat := events.filterMap numberOf

def numbers (packets : List THPacket) : List Nat := packets.filterMap seqOf

theorem steady_step {count : Nat} {channel : THReliableChannel} {event : Event}
    (calm : Calm count event) (ordered : InOrder (inbound channel))
    (steady : Steady .opened channel) : Steady .opened (step channel event) := by
  cases event with
  | handlePacket delegate packet =>
      obtain ⟨sender, sound, goesOn, _⟩ := calm
      exact steady_handlePacket steady ordered sender sound goesOn
  | sendPacket packet => exact steady_sendPacket steady packet
  | close delegate => exact absurd calm id
  | setState delegate state =>
      obtain ⟨sender, rfl⟩ := calm
      exact steady_setState steady sender .opened
  | ackPing =>
      simp only [step, ackPing]
      split
      · exact steady_sendPacket steady _
      · exact steady
  | flushOut => exact ⟨steady.state, steady.registered, steady.noEnd⟩

theorem steady_alive {channel : THReliableChannel} (steady : Steady .opened channel) :
    Alive channel := by
  unfold Alive
  rw [steady.state]
  decide

theorem delivered_numbers {view : Inbound} (ordered : InOrder view) :
    view.delivered.map seqOf = (List.range view.delivered.length).map some := by
  apply List.ext_getElem
  · simp
  · intro index inside _
    have within : index < view.delivered.length := by simpa using inside
    simpa using firstWith_seq (ordered.delivered index within)

theorem mem_numbers {packets : List THPacket} {seq : Nat} :
    seq ∈ numbers packets ↔ ∃ packet ∈ packets, seqOf packet = some seq :=
  List.mem_filterMap

theorem delivered_bounded {view : Inbound} {count : Nat} (ordered : InOrder view)
    (below : ∀ seq ∈ numbers view.received, seq < count) : view.delivered.length ≤ count := by
  by_contra more
  have inside : count < view.delivered.length := by omega
  have first := ordered.delivered count inside
  have received := mem_numbers.mpr ⟨_, firstWith_mem first, firstWith_seq first⟩
  exact Nat.lt_irrefl count (below count received)

/-- While nothing is stuck, what was handed over is the run from 0 on. -/
theorem leading_delivered {view : Inbound} {count : Nat} (flowing : Flowing view)
    (below : ∀ seq ∈ numbers view.received, seq < count) :
    leading (numbers view.received) count = view.delivered.length := by
  have bounded := delivered_bounded flowing.ordered below
  apply leading_eq bounded
  · intro seq inside
    have first := flowing.ordered.delivered seq inside
    exact mem_numbers.mpr ⟨_, firstWith_mem first, firstWith_seq first⟩
  · intro less member
    obtain ⟨packet, received, stamped⟩ := mem_numbers.mp member
    have waiting := flowing.ordered.held packet received _ stamped (Nat.le_refl _)
    have next := flowing.ordered.next
    rw [Nat.mod_eq_of_lt (seqOf_lt stamped)] at next
    exact flowing.free (next ▸ waiting)

/-- Every other event than an arrival has no number and leaves the incoming half. -/
theorem event_arrives (channel : THReliableChannel) (event : Event) :
    (∃ delegate packet, event = .handlePacket delegate packet) ∨
      (numberOf event = none ∧ inbound (step channel event) = inbound channel) := by
  rcases inbound_step channel event with arrives | same
  · exact Or.inl arrives
  · cases event with
    | handlePacket delegate packet => exact Or.inl ⟨delegate, packet, rfl⟩
    | sendPacket | close | setState | ackPing | flushOut => exact Or.inr ⟨rfl, same⟩

theorem numberOf_below {count seq : Nat} {event : Event} (calm : Calm count event)
    (numbered : numberOf event = some seq) : seq < count := by
  cases event with
  | handlePacket delegate packet =>
      obtain ⟨_, _, _, other, less, stamped⟩ := calm
      have same := stamped.symm.trans numbered
      cases same
      exact less
  | sendPacket | close | setState | ackPing | flushOut => cases numbered

theorem received_step (channel : THReliableChannel) (event : Event) :
    numbers (step channel event).history.received =
      numbers channel.history.received ++ (numberOf event).toList := by
  rcases event_arrives channel event with ⟨delegate, packet, rfl⟩ | ⟨quiet, same⟩
  · simp only [step, received_handlePacket, numbers, numberOf, List.filterMap_append]
    cases stamped : seqOf packet <;> simp [stamped]
  · have received : (step channel event).history.received = channel.history.received :=
      congrArg Inbound.received same
    simp [received, quiet]

/-- A second copy of the last packet handed over, with more to come, is the end
of all handing over. -/
theorem stale_blocks {channel : THReliableChannel} {packet : THPacket} {seq : Nat}
    (flowing : Flowing (inbound channel)) (stamped : seqOf packet = some seq)
    (stale : seq + 1 = channel.history.delivered.length) :
    ¬ Unblocked (receive (inbound channel) packet) := by
  intro clear
  have last : channel.lastProcessed = channel.history.delivered.length - 1 := flowing.ordered.last
  have admitted : channel.lastProcessed ≤ seq := by omega
  have absent : ∀ node ∈ channel.inPacketBuffer.chain, node.seq ≠ seq := by
    intro node member same
    have above : channel.history.delivered.length ≤ node.seq := flowing.unblocked node member
    omega
  have member : nodeWithPacket packet ∈ (channel.inPacketBuffer.push packet).chain := by
    refine (mem_push flowing.ordered.sorted packet _).mpr (Or.inr ⟨rfl, ?_⟩)
    rw [nodeWithPacket_seq stamped]
    intro old
    obtain ⟨node, inside, same⟩ := List.mem_map.mp old
    exact absent node inside same
  have above := clear (nodeWithPacket packet)
    (by simpa [receive, inbound, stamped, admitted] using member)
  rw [nodeWithPacket_seq stamped] at above
  simp only [receive, inbound] at above
  omega

/-- After a stale packet all are handed over just when all were before it. -/
theorem stale_all_iff {count : Nat} {channel : THReliableChannel} {packet : THPacket} {seq : Nat}
    (flowing : Flowing (inbound channel))
    (below : ∀ seq ∈ numbers channel.history.received, seq < count)
    (stamped : seqOf packet = some seq) (stale : seq + 1 = channel.history.delivered.length)
    (delegate : Delegate) (rest : List Event) :
    (run step (channel.handlePacket delegate packet) rest).history.delivered.length = count ↔
      NeverStale count (numbers channel.history.received) (seq :: arrivals rest) := by
  have reached := leading_delivered flowing below
  have bounded : channel.history.delivered.length ≤ count :=
    delivered_bounded flowing.ordered below
  have blocked := stale_blocks flowing stamped stale
  have view := blocked_handlePacket flowing.ordered blocked delegate
  have stopped := blocked_run (channel.handlePacket delegate packet)
    (inOrder_step channel (.handlePacket delegate packet) flowing.ordered) (view ▸ blocked) rest
  have final : (run step (channel.handlePacket delegate packet) rest).history.delivered.length =
      channel.history.delivered.length := by
    rw [stopped]
    exact congrArg (fun view => view.delivered.length) view
  rw [final]
  constructor
  · intro whole
    apply neverStale_complete
    intro number less
    have within : number < channel.history.delivered.length := whole ▸ less
    have held := flowing.ordered.delivered number within
    exact mem_numbers.mpr ⟨_, firstWith_mem held, firstWith_seq held⟩
  · intro never
    by_contra short
    exact never.1 (reached ▸ ⟨stale, Nat.lt_of_le_of_ne bounded short⟩)

/-- All packets are handed over in the end if and only if none of them arrives
stale. -/
theorem delivered_all_iff {count : Nat} {channel : THReliableChannel}
    (flowing : Flowing (inbound channel)) (steady : Steady .opened channel)
    (below : ∀ seq ∈ numbers channel.history.received, seq < count) (events : List Event)
    (calm : ∀ event ∈ events, Calm count event)
    (complete : ∀ seq < count, seq ∈ numbers channel.history.received ++ arrivals events) :
    (run step channel events).history.delivered.length = count ↔
      NeverStale count (numbers channel.history.received) (arrivals events) := by
  induction events generalizing channel with
  | nil =>
      have there : ∀ seq < count, seq ∈ numbers channel.history.received := by
        simpa [arrivals] using complete
      refine iff_of_true ?_ trivial
      exact (leading_delivered flowing below).symm.trans (leading_complete there)
  | cons event rest ih =>
      have first := calm event List.mem_cons_self
      have later := fun other member => calm other (List.mem_cons_of_mem _ member)
      have received := received_step channel event
      have steadyNext := steady_step first flowing.ordered steady
      have belowNext : ∀ seq ∈ numbers (step channel event).history.received, seq < count := by
        intro seq member
        rw [received] at member
        rcases List.mem_append.mp member with old | new
        · exact below seq old
        · exact numberOf_below first (Option.mem_toList.mp new)
      have completeNext : ∀ seq < count,
          seq ∈ numbers (step channel event).history.received ++ arrivals rest := by
        intro seq less
        have there := complete seq less
        rw [received, List.append_assoc]
        cases numbered : numberOf event <;> simpa [arrivals, numbered] using there
      rw [run_cons]
      rcases event_arrives channel event with ⟨delegate, packet, rfl⟩ | ⟨quiet, same⟩
      · obtain ⟨_, _, _, seq, _, stamped⟩ := first
        have arrived : arrivals (.handlePacket delegate packet :: rest) = seq :: arrivals rest := by
          simp [arrivals, numberOf, stamped]
        have reached := leading_delivered flowing below
        rw [arrived]
        by_cases stale : seq + 1 = channel.history.delivered.length
        · exact stale_all_iff flowing below stamped stale delegate rest
        · have fresh : Fresh channel (.handlePacket delegate packet) := by
            rintro ⟨started, repeated⟩
            have last : channel.lastProcessed = channel.history.delivered.length - 1 :=
              flowing.ordered.last
            have some_ := List.length_pos_iff.mpr started
            rw [stamped] at repeated
            simp only [inbound, Option.some.injEq] at some_ repeated
            omega
          have flowingNext := flowing_step channel _ fresh (steady_alive steadyNext) flowing
          have next := ih flowingNext steadyNext belowNext later completeNext
          rw [received] at next
          simp only [numberOf, stamped, Option.toList_some] at next
          rw [next]
          constructor
          · intro never
            exact ⟨fun again => stale (again.1.trans reached), never⟩
          · exact fun never => never.2
      · have flowingNext : Flowing (inbound (step channel event)) := same ▸ flowing
        have next := ih flowingNext steadyNext belowNext later completeNext
        rw [received] at next
        simpa [arrivals, quiet] using next

end Telehash.ReliableArrivals
