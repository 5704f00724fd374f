import Telehash.ChannelTrace
import Telehash.LineDispatch
import Telehash.ReliableInbound

/-!
The traces of a reliable channel. Each follows the function it is named after
and takes its intermediate channels from the parts of that function. Beside
each stands when it is final.
-/

namespace Telehash.ReliableTrace
open Foundation Packet PacketBuffer Channel FinalTrace ChannelTrace Runs
open ReliableChannel THReliableChannel ReliableInbound

def sentSince (before after : THReliableChannel) : Seen :=
  acts ((after.history.transmitted.drop before.history.transmitted.length).map .transmitted)

def seenSend (channel : THReliableChannel) (packet : THPacket) : Seen :=
  sentSince channel (channel.sendPacket packet)

def seenPerformEnded (channel : THReliableChannel) : Call → Seen
  | .sendPacket packet => seenSend channel packet
  | .close => []

def seenSetEnded (channel : THReliableChannel) (delegate : Delegate) : Seen :=
  .became .ended :: watch performEnded seenPerformEnded { channel with state := .ended }
    (delegate.didChangeStateTo .ended)

def seenClose (channel : THReliableChannel) (delegate : Delegate) : Seen :=
  if channel.state = .opening ∨ channel.state = .ended then []
  else seenSend channel endPacket ++ seenSetEnded (channel.sendPacket endPacket) delegate

def seenPerform (delegate : Delegate) (channel : THReliableChannel) : Call → Seen
  | .sendPacket packet => seenSend channel packet
  | .close => seenClose channel delegate

def seenPerformAll (channel : THReliableChannel) (delegate : Delegate) (calls : List Call) :
    Seen :=
  watch (perform delegate) (seenPerform delegate) channel calls

def seenSetState (channel : THReliableChannel) (delegate : Delegate) (state : THChannelState) :
    Seen :=
  .became state :: seenPerformAll { channel with state := state } delegate
    (delegate.didChangeStateTo state)

def seenSuperHandlePacket (channel : THReliableChannel) (delegate : Delegate)
    (packet : THPacket) : Seen :=
  match packet.objectForKey "err" with
  | none => []
  | some err =>
      seenPerformAll channel delegate (delegate.didFailWithError err) ++
        seenSetState (channel.performAll delegate (delegate.didFailWithError err)) delegate .errored

def seenDeliver (delegate : Option Delegate) : List THPacketNode → THReliableChannel → Seen
  | [], _ => []
  | front :: rest, channel =>
      let looked := channel.lookForMissing
      if front.seq ≠ channel.nextExpectedSequence then sentSince looked looked.outOfOrder
      else
        let handing := seenPerformAll (looked.pop front.packet rest) (asked delegate)
          ((asked delegate).handlePacket front.packet)
        let after := looked.handToDelegate (asked delegate) front.packet rest
        handed delegate front.packet ++ handing ++
          if after.state ≠ .ended ∧ isEnd front.packet then
            seenSetEnded after (asked delegate) ++
              seenClose (after.setEnded (asked delegate)) (asked delegate)
          else seenDeliver delegate rest after

def seenHandlePacket (channel : THReliableChannel) (delegate : Option Delegate)
    (packet : THPacket) : Seen :=
  let failed := channel.superHandlePacket (asked delegate) packet
  let admitted :=
    ((channel.beforeAdmission (asked delegate) packet).noteReceived packet).enqueue packet
  seenSuperHandlePacket channel (asked delegate) packet ++
    sentSince failed ((failed.sawSeq packet).handleMiss packet) ++
      seenDeliver delegate admitted.inPacketBuffer.chain admitted

/-! ## States -/

theorem state_close (channel : THReliableChannel) (delegate : Delegate) :
    (channel.close delegate).state = if channel.state = .opening then .opening else .ended := by
  unfold close
  split
  · rename_i quiet
    rcases quiet with opening | ended
    · simp [deregister, opening]
    · simp [deregister, ended]
  · rename_i loud
    have other : channel.state ≠ .opening := fun same => loud (Or.inl same)
    rw [if_neg other]
    exact ended_setEnded _ delegate

/-- Calls on a halted channel transmit nothing. -/
theorem transmitted_halted {channel : THReliableChannel} (halted : channel.state.Halted)
    (packet : THPacket) :
    (channel.sendPacket packet).history.transmitted = channel.history.transmitted := by
  rw [sendPacket, if_pos halted, notePassed]
  split <;> rfl

/-! ## Traces of calls -/

@[simp] theorem last_sentSince (state : THChannelState) (before after : THReliableChannel) :
    last state (sentSince before after) = state := last_acts _ _

theorem final_sentSince (state : THChannelState) {before after : THReliableChannel}
    (silent : state.Halted → after.history.transmitted = before.history.transmitted) :
    Final state (sentSince before after) := by
  refine (finalFrom_acts _ _).mpr fun halted => ?_
  rw [silent halted, List.drop_length, List.map_nil]

theorem last_seenSend (state : THChannelState) (channel : THReliableChannel) (packet : THPacket) :
    last state (seenSend channel packet) = state := last_acts _ _

theorem final_seenSend (channel : THReliableChannel) (packet : THPacket) :
    Final channel.state (seenSend channel packet) :=
  final_sentSince _ fun halted => transmitted_halted halted packet

theorem last_seenPerformEnded (channel : THReliableChannel) (call : Call) :
    last channel.state (seenPerformEnded channel call) = (performEnded channel call).state := by
  cases call with
  | sendPacket packet => simp [seenPerformEnded, seenSend, performEnded]
  | close => rfl

theorem final_performEnded (channel : THReliableChannel) (calls : List Call) :
    Final channel.state (watch performEnded seenPerformEnded channel calls) := by
  refine (finalFrom_watch last_seenPerformEnded channel calls).mpr ?_
  induction calls generalizing channel with
  | nil => trivial
  | cons call rest ih =>
      refine ⟨?_, ih _⟩
      cases call with
      | sendPacket packet => exact final_seenSend channel packet
      | close => trivial

theorem last_seenSetEnded (state : THChannelState) (channel : THReliableChannel)
    (delegate : Delegate) :
    last state (seenSetEnded channel delegate) = (channel.setEnded delegate).state :=
  last_watch last_seenPerformEnded { channel with state := .ended } _

theorem final_seenSetEnded (state : THChannelState) (channel : THReliableChannel)
    (delegate : Delegate) :
    Final state (seenSetEnded channel delegate) ↔ state ≠ .errored := by
  have calls := final_performEnded { channel with state := .ended }
    (delegate.didChangeStateTo .ended)
  have whole : Final state (seenSetEnded channel delegate) ↔ (state.Halted → .ended = state) :=
    and_iff_left calls
  rw [whole]
  cases state <;> decide

theorem last_seenClose (channel : THReliableChannel) (delegate : Delegate) :
    last channel.state (seenClose channel delegate) = (channel.close delegate).state := by
  unfold seenClose close
  split
  · rfl
  · rw [last_append, last_seenSetEnded]
    rfl

theorem final_seenClose (channel : THReliableChannel) (delegate : Delegate) :
    Final channel.state (seenClose channel delegate) ↔ channel.state ≠ .errored := by
  unfold seenClose
  split
  · rename_i quiet
    refine iff_of_true trivial fun errored => ?_
    rw [errored] at quiet
    revert quiet
    decide
  · have sent := final_seenSend channel endPacket
    rw [final_append, last_seenSend, final_seenSetEnded]
    exact and_iff_right sent

theorem performs_perform (delegate : Delegate) :
    Performs THReliableChannel.state (perform delegate) (seenPerform delegate) where
  sends := state_sendPacket
  closes channel := state_close channel delegate
  follows channel call := by
    cases call with
    | sendPacket packet => simp [seenPerform, seenSend, perform]
    | close => exact last_seenClose channel delegate
  sending := final_seenSend
  closing channel := final_seenClose channel delegate

theorem state_performAll (channel : THReliableChannel) (delegate : Delegate)
    (calls : List Call) :
    (channel.performAll delegate calls).state = afterCalls channel.state calls :=
  state_calls (performs_perform delegate) channel calls

theorem state_setState (channel : THReliableChannel) (delegate : Delegate)
    (state : THChannelState) :
    (channel.setState delegate state).state =
      afterCalls state (delegate.didChangeStateTo state) :=
  state_performAll _ delegate _

theorem last_seenPerformAll (channel : THReliableChannel) (delegate : Delegate)
    (calls : List Call) :
    last channel.state (seenPerformAll channel delegate calls) =
      afterCalls channel.state calls :=
  last_calls (performs_perform delegate) channel calls

theorem final_seenPerformAll (channel : THReliableChannel) (delegate : Delegate)
    (calls : List Call) :
    Final channel.state (seenPerformAll channel delegate calls) ↔
      (channel.state = .errored → closes calls = false) :=
  final_calls (performs_perform delegate) channel calls

theorem last_seenSetState (before : THChannelState) (channel : THReliableChannel)
    (delegate : Delegate) (state : THChannelState) :
    last before (seenSetState channel delegate state) =
      afterCalls state (delegate.didChangeStateTo state) :=
  last_seenPerformAll { channel with state := state } delegate _

theorem final_seenSetState (before : THChannelState) (channel : THReliableChannel)
    (delegate : Delegate) (state : THChannelState) :
    Final before (seenSetState channel delegate state) ↔
      (before.Halted → state = before) ∧
        (state = .errored → closes (delegate.didChangeStateTo state) = false) :=
  and_congr_right fun _ => final_seenPerformAll { channel with state := state } delegate _

/-! ## Traces of arrivals -/

theorem state_superHandlePacket (channel : THReliableChannel) (delegate : Delegate)
    (packet : THPacket) :
    (channel.superHandlePacket delegate packet).state =
      match packet.objectForKey "err" with
      | none => channel.state
      | some _ => afterCalls .errored (delegate.didChangeStateTo .errored) := by
  unfold superHandlePacket
  cases packet.objectForKey "err" with
  | none => rfl
  | some err => exact state_setState _ delegate .errored

theorem last_seenSuperHandlePacket (channel : THReliableChannel) (delegate : Delegate)
    (packet : THPacket) :
    last channel.state (seenSuperHandlePacket channel delegate packet) =
      (channel.superHandlePacket delegate packet).state := by
  rw [state_superHandlePacket]
  unfold seenSuperHandlePacket
  cases packet.objectForKey "err" with
  | none => rfl
  | some err => rw [last_append, last_seenSetState]

/-- Failing is final when the delegate closes the channel neither when told of
the error, unless the channel is only opening, nor when told of the new state. -/
def FailsOnce (delegate : Delegate) (state : THChannelState) (err : Json) : Prop :=
  state ≠ .ended ∧ (closes (delegate.didFailWithError err) = true → state = .opening) ∧
    closes (delegate.didChangeStateTo .errored) = false

theorem final_seenSuperHandlePacket {channel : THReliableChannel} (delegate : Delegate)
    (packet : THPacket) (sound : channel.state ≠ .errored) :
    Final channel.state (seenSuperHandlePacket channel delegate packet) ↔
      ∀ err, packet.objectForKey "err" = some err → FailsOnce delegate channel.state err := by
  unfold seenSuperHandlePacket
  split
  · rename_i none
    exact iff_of_true trivial fun err found => by rw [none] at found; cases found
  · rename_i err found
    rw [final_append, last_seenPerformAll, final_seenSetState, final_seenPerformAll]
    simp only [sound, false_implies, true_and, true_implies, found, Option.some.injEq,
      forall_eq', FailsOnce, ← and_assoc]
    refine and_congr_left fun _ => ?_
    unfold afterCalls THChannelState.Halted
    cases channel.state <;> cases closes (delegate.didFailWithError err) <;> simp_all

theorem final_seenMiss (channel : THReliableChannel) (packet : THPacket) :
    Final channel.state (sentSince channel (channel.handleMiss packet)) := by
  refine final_sentSince _ fun halted => ?_
  unfold handleMiss resendMissingPackets
  split
  · rfl
  · rw [if_neg]
    intro opened_
    rw [opened_] at halted
    revert halted
    decide

theorem final_seenOutOfOrder (channel : THReliableChannel) :
    Final channel.state (sentSince channel channel.outOfOrder) := by
  refine final_sentSince _ fun halted => ?_
  unfold outOfOrder
  split
  · exact transmitted_halted halted _
  · rfl

/-- The packet at the front of the buffer is the expected one. -/
def InLine (expected : Nat) : List THPacketNode → Prop
  | [] => False
  | front :: _ => front.seq = expected

def nextExpected (expected : Nat) (packet : THPacket) : Nat :=
  ((seqOf packet).map fun seq => (seq + 1) % uintModulus).getD expected

/-- No packet at which the delegate closes the channel is followed in line by
another one. -/
def Uninterrupted (delegate : Delegate) : Nat → List THPacketNode → Prop
  | _, [] => True
  | expected, front :: rest =>
      front.seq = expected →
        if closes (delegate.handlePacket front.packet) then
          ¬ InLine (nextExpected expected front.packet) rest
        else
          isEnd front.packet = true ∨
            Uninterrupted delegate (nextExpected expected front.packet) rest

theorem state_handToDelegate (channel : THReliableChannel) (delegate : Delegate)
    (packet : THPacket) (rest : List THPacketNode) :
    (channel.handToDelegate delegate packet rest).state =
      afterCalls channel.state (delegate.handlePacket packet) := by
  have performed := state_performAll (channel.pop packet rest) delegate
    (delegate.handlePacket packet)
  obtain ⟨_, _, handed⟩ := handToDelegate_eq channel delegate packet rest
  rw [handed]
  exact performed

theorem next_handToDelegate (channel : THReliableChannel) (delegate : Delegate)
    (front : THPacketNode) (rest : List THPacketNode) :
    (channel.handToDelegate delegate front.packet rest).nextExpectedSequence =
      nextExpected channel.nextExpectedSequence front.packet :=
  congrArg ReliableViews.Inbound.nextExpectedSequence
    (inbound_handToDelegate channel delegate front rest)

theorem seenClose_ended {channel : THReliableChannel} (delegate : Delegate)
    (ended : channel.state = .ended) : seenClose channel delegate = [] := by
  simp [seenClose, ended]

section Loop
variable (delegate : Delegate) (front : THPacketNode) (rest : List THPacketNode)
variable (channel : THReliableChannel)

/-- The trace from a packet in line on. -/
theorem seenDeliver_inLine (expected : front.seq = channel.nextExpectedSequence) :
    Final channel.state (seenDeliver (some delegate) (front :: rest) channel) ↔
      ¬ channel.state.Halted ∧
        (afterCalls channel.state (delegate.handlePacket front.packet) ≠ .ended ∧
            isEnd front.packet = true ∨
          Final (afterCalls channel.state (delegate.handlePacket front.packet))
            (seenDeliver (some delegate) rest
              (channel.lookForMissing.handToDelegate delegate front.packet rest))) := by
  have after := state_handToDelegate channel.lookForMissing delegate front.packet rest
  have looked : channel.lookForMissing.state = channel.state := rfl
  have popped : (channel.lookForMissing.pop front.packet rest).state = channel.state := rfl
  have handing := final_seenPerformAll (channel.lookForMissing.pop front.packet rest) delegate
    (delegate.handlePacket front.packet)
  have moved := last_seenPerformAll (channel.lookForMissing.pop front.packet rest) delegate
    (delegate.handlePacket front.packet)
  rw [looked] at after
  rw [popped] at handing moved
  rw [seenDeliver]
  simp only [expected, ne_eq, not_true_eq_false, ↓reduceIte, asked, Option.getD_some, after]
  rw [final_append, final_append, last_append, last_handed, moved, handing, final_handed]
  simp only [reduceCtorEq, imp_false]
  refine and_assoc.trans (and_congr_right fun alive => ?_)
  have sound : channel.state ≠ .errored := fun same => alive (Or.inr same)
  simp only [sound, false_implies, true_and]
  generalize reached : afterCalls channel.state (delegate.handlePacket front.packet) = state
  have calm : state ≠ .errored := fun same => sound (afterCalls_errored (reached.trans same))
  by_cases ends : state ≠ .ended ∧ isEnd front.packet = true
  · have ended := ended_setEnded
      (channel.lookForMissing.handToDelegate delegate front.packet rest) delegate
    rw [if_pos ends, seenClose_ended delegate ended, List.append_nil, final_seenSetEnded]
    exact iff_of_true calm (Or.inl ends)
  · rw [if_neg ends]
    exact (or_iff_right ends).symm

theorem seenDeliver_waiting (handing : Option Delegate)
    (unexpected : front.seq ≠ channel.nextExpectedSequence) :
    Final channel.state (seenDeliver handing (front :: rest) channel) := by
  rw [seenDeliver]
  simp only [ne_eq, unexpected, not_false_eq_true, ↓reduceIte]
  exact final_seenOutOfOrder channel.lookForMissing

end Loop

theorem final_seenDeliver_halted {channel : THReliableChannel} (delegate : Delegate)
    (nodes : List THPacketNode) (halted : channel.state.Halted) :
    Final channel.state (seenDeliver (some delegate) nodes channel) ↔
      ¬ InLine channel.nextExpectedSequence nodes := by
  cases nodes with
  | nil => exact iff_of_true trivial id
  | cons front rest =>
      by_cases expected : front.seq = channel.nextExpectedSequence
      · rw [seenDeliver_inLine delegate front rest channel expected]
        exact iff_of_false (fun both => both.1 halted) (not_not_intro expected)
      · exact iff_of_true (seenDeliver_waiting front rest channel _ expected) expected

theorem final_seenDeliver_opening {channel : THReliableChannel} (delegate : Delegate)
    (nodes : List THPacketNode) (opening : channel.state = .opening) :
    Final channel.state (seenDeliver (some delegate) nodes channel) := by
  induction nodes generalizing channel with
  | nil => trivial
  | cons front rest ih =>
      by_cases expected : front.seq = channel.nextExpectedSequence
      · rw [seenDeliver_inLine delegate front rest channel expected, opening, afterCalls_opening]
        have after : (channel.lookForMissing.handToDelegate delegate front.packet rest).state =
            .opening := by
          rw [state_handToDelegate, show channel.lookForMissing.state = .opening from opening,
            afterCalls_opening]
        have later := ih after
        rw [after] at later
        exact ⟨by decide, Or.inr later⟩
      · exact seenDeliver_waiting front rest channel _ expected

theorem final_seenDeliver_open {channel : THReliableChannel} (delegate : Delegate)
    (nodes : List THPacketNode) (alive : ¬ channel.state.Halted)
    (begun : channel.state ≠ .opening) :
    Final channel.state (seenDeliver (some delegate) nodes channel) ↔
      Uninterrupted delegate channel.nextExpectedSequence nodes := by
  induction nodes generalizing channel with
  | nil => exact Iff.rfl
  | cons front rest ih =>
      by_cases expected : front.seq = channel.nextExpectedSequence
      · let after := channel.lookForMissing.handToDelegate delegate front.packet rest
        have reached : after.state =
            afterCalls channel.state (delegate.handlePacket front.packet) :=
          state_handToDelegate channel.lookForMissing delegate front.packet rest
        have next : after.nextExpectedSequence =
            nextExpected channel.nextExpectedSequence front.packet :=
          next_handToDelegate channel.lookForMissing delegate front rest
        have counted : Uninterrupted delegate channel.nextExpectedSequence (front :: rest) ↔
            if closes (delegate.handlePacket front.packet) then
              ¬ InLine after.nextExpectedSequence rest
            else isEnd front.packet = true ∨
              Uninterrupted delegate after.nextExpectedSequence rest := by
          rw [next]
          exact forall_prop_of_true expected
        rw [seenDeliver_inLine delegate front rest channel expected, counted]
        refine (and_iff_right alive).trans ?_
        cases closing : closes (delegate.handlePacket front.packet) with
        | true =>
            have ended : afterCalls channel.state (delegate.handlePacket front.packet) =
                .ended := by
              simp [afterCalls, closing, begun]
            rw [ended] at reached ⊢
            have halted : after.state.Halted := Or.inl reached
            have stopped := final_seenDeliver_halted delegate rest halted
            rw [reached] at stopped
            simpa using stopped
        | false =>
            have same : afterCalls channel.state (delegate.handlePacket front.packet) =
                channel.state := by
              simp [afterCalls, closing]
            rw [same] at reached ⊢
            have onward : Final after.state (seenDeliver (some delegate) rest after) ↔
                Uninterrupted delegate after.nextExpectedSequence rest :=
              ih (reached ▸ alive) (reached ▸ begun)
            rw [reached] at onward
            have going : channel.state ≠ .ended := fun ended => alive (Or.inl ended)
            simp only [going, ne_eq, not_false_eq_true, true_and, Bool.false_eq_true, ↓reduceIte]
            exact or_congr_right onward
      · exact iff_of_true (seenDeliver_waiting front rest channel _ expected)
          fun same => absurd same expected

theorem last_seenDeliver (delegate : Option Delegate) (nodes : List THPacketNode)
    (channel : THReliableChannel) :
    last channel.state (seenDeliver delegate nodes channel) =
      (deliver (asked delegate) nodes channel).state := by
  induction nodes generalizing channel with
  | nil => rfl
  | cons front rest ih =>
      rw [seenDeliver, deliver]
      by_cases expected : front.seq = channel.nextExpectedSequence
      · let after := channel.lookForMissing.handToDelegate (asked delegate) front.packet rest
        have reached : after.state =
            afterCalls channel.state ((asked delegate).handlePacket front.packet) :=
          state_handToDelegate channel.lookForMissing (asked delegate) front.packet rest
        have handing : last channel.state (seenPerformAll
            (channel.lookForMissing.pop front.packet rest) (asked delegate)
              ((asked delegate).handlePacket front.packet)) = after.state :=
          (last_seenPerformAll (channel.lookForMissing.pop front.packet rest) _ _).trans
            reached.symm
        simp only [expected, ne_eq, not_true_eq_false, ↓reduceIte]
        rw [last_append, last_append, last_handed, handing]
        split
        · rw [last_append, last_seenSetEnded, last_seenClose]
        · exact ih after
      · simp only [ne_eq, expected, not_false_eq_true, ↓reduceIte, last_sentSince]
        unfold outOfOrder
        split
        · exact (state_sendPacket channel.lookForMissing _).symm
        · rfl

/-- What the loop finds once the packet is admitted. -/
def waiting (channel : THReliableChannel) (packet : THPacket) : List THPacketNode :=
  (receive (ReliableViews.inbound channel) packet).inPacketBuffer.chain

section Admission
variable (channel : THReliableChannel) (delegate : Delegate) (packet : THPacket)

theorem admitted_waiting :
    (((channel.beforeAdmission delegate packet).noteReceived packet).enqueue
        packet).inPacketBuffer.chain = waiting channel packet ∧
      (((channel.beforeAdmission delegate packet).noteReceived packet).enqueue
        packet).nextExpectedSequence = channel.nextExpectedSequence := by
  have view := inbound_admitted channel delegate packet
  have buffer := congrArg (fun seen => seen.inPacketBuffer.chain) view
  have next := congrArg ReliableViews.Inbound.nextExpectedSequence view
  exact ⟨buffer, next⟩

theorem state_admitted :
    (((channel.beforeAdmission delegate packet).noteReceived packet).enqueue packet).state =
      (channel.superHandlePacket delegate packet).state := by
  obtain ⟨_, _, _, _, before⟩ := beforeAdmission_eq channel delegate packet
  obtain ⟨_, entered⟩ := enqueue_eq
    ((channel.beforeAdmission delegate packet).noteReceived packet) packet
  rw [entered, before]
  rfl

end Admission

theorem last_seenHandlePacket (channel : THReliableChannel) (delegate : Option Delegate)
    (packet : THPacket) :
    last channel.state (seenHandlePacket channel delegate packet) =
      (channel.handlePacket (asked delegate) packet).state := by
  unfold seenHandlePacket
  rw [last_append, last_append, last_seenSuperHandlePacket, last_sentSince,
    ← state_admitted channel (asked delegate) packet, last_seenDeliver]
  rfl

/-- When handling a packet is final, by what was so before: the state, the
packets in line with the new one among them, and the answers of the delegate. -/
def HandlesOnce (delegate : Delegate) (state : THChannelState) (expected : Nat)
    (nodes : List THPacketNode) (packet : THPacket) : Prop :=
  match packet.objectForKey "err" with
  | some err => FailsOnce delegate state err ∧ ¬ InLine expected nodes
  | none =>
      if state = .ended then ¬ InLine expected nodes
      else state = .opening ∨ Uninterrupted delegate expected nodes

theorem final_seenHandlePacket {channel : THReliableChannel} (delegate : Delegate)
    (packet : THPacket) (sound : channel.state ≠ .errored) :
    Final channel.state (seenHandlePacket channel (some delegate) packet) ↔
      HandlesOnce delegate channel.state channel.nextExpectedSequence (waiting channel packet)
        packet := by
  have failing := final_seenSuperHandlePacket delegate packet sound
  have missing : Final (channel.superHandlePacket delegate packet).state
      (sentSince (channel.superHandlePacket delegate packet)
        (((channel.superHandlePacket delegate packet).sawSeq packet).handleMiss packet)) :=
    final_seenMiss ((channel.superHandlePacket delegate packet).sawSeq packet) packet
  obtain ⟨nodes, next⟩ := admitted_waiting channel delegate packet
  have admitted := state_admitted channel delegate packet
  unfold seenHandlePacket
  rw [final_append, final_append, last_append, last_seenSuperHandlePacket, last_sentSince]
  simp only [asked, Option.getD_some, failing, missing, and_true, nodes]
  rw [← admitted]
  have state := admitted.trans (state_superHandlePacket channel delegate packet)
  unfold HandlesOnce
  cases found : packet.objectForKey "err" with
  | some err =>
      simp only [found] at state
      simp only [Option.some.injEq, forall_eq']
      refine and_congr_right fun once => ?_
      have errored := state
      rw [afterCalls, once.2.2] at errored
      rw [final_seenDeliver_halted delegate _ (Or.inr errored), next]
  | none =>
      simp only [found] at state
      simp only [reduceCtorEq, false_implies, implies_true, true_and]
      by_cases ended : channel.state = .ended
      · rw [if_pos ended, final_seenDeliver_halted delegate _ (Or.inl (state.trans ended)), next]
      · rw [if_neg ended]
        by_cases opening : channel.state = .opening
        · exact iff_of_true (final_seenDeliver_opening delegate _ (state.trans opening))
            (Or.inl opening)
        · have alive : ¬ channel.state.Halted := fun halted => halted.elim ended sound
          rw [final_seenDeliver_open delegate _ (state ▸ alive) (state ▸ opening), next]
          exact (or_iff_right opening).symm

/-! ## The first packet of a channel made for it -/

/-- The only packet in line, with no delegate to take it. -/
theorem seenDeliver_unheard {channel : THReliableChannel} {front : THPacketNode}
    (expected : front.seq = channel.nextExpectedSequence) :
    (Final channel.state (seenDeliver none [front] channel) ↔
        (isEnd front.packet = true → channel.state ≠ .errored)) ∧
      last channel.state (seenDeliver none [front] channel) =
        if isEnd front.packet then .ended else channel.state := by
  let after := channel.lookForMissing.handToDelegate .none front.packet []
  have reached : after.state = channel.state :=
    state_handToDelegate channel.lookForMissing .none front.packet []
  have trace : seenDeliver none [front] channel =
      if channel.state ≠ .ended ∧ isEnd front.packet then seenSetEnded after .none else [] := by
    rw [seenDeliver]
    simp only [expected, ne_eq, not_true_eq_false, ↓reduceIte]
    have unheard : handed none front.packet ++ seenPerformAll
        (channel.lookForMissing.pop front.packet []) (asked none)
          ((asked none).handlePacket front.packet) = [] := rfl
    rw [unheard, List.nil_append, ← reached]
    simp only [asked, Option.getD_none]
    rw [seenClose_ended .none (ended_setEnded _ .none), List.append_nil]
    rfl
  rw [trace]
  cases isEnd front.packet with
  | false => simp [FinalFrom, last]
  | true =>
      by_cases ended : channel.state = .ended
      · simp [ended, FinalFrom, last]
      · simp only [ended, ne_eq, not_false_eq_true, and_self, ↓reduceIte, true_implies]
        refine ⟨final_seenSetEnded _ after .none, ?_⟩
        rw [last_seenSetEnded]
        exact ended_setEnded after .none

section First
variable {channel : THReliableChannel} {packet : THPacket}
variable (fresh : ReliableViews.inbound channel = ReliableViews.inbound (initToIdentity 0))
variable (first : seqOf packet = some 0)
include fresh first

theorem waiting_first : waiting channel packet = [⟨packet, 0⟩] := by
  rw [waiting, fresh]
  simp [receive, ReliableViews.inbound, initToIdentity, first, THPacketBuffer.push, pushNode,
    nodeWithPacket, THPacketBuffer.new]

/-- With no delegate to hear of it, the first packet is final unless it both
fails and ends the channel; it leaves the state by its two fields. -/
theorem first_handled (opening : channel.state = .opening) :
    (Final channel.state (seenHandlePacket channel none packet) ↔
        (isEnd packet = true → packet.objectForKey "err" = none)) ∧
      (channel.handlePacket .none packet).state =
        if isEnd packet then .ended
        else if (packet.objectForKey "err").isSome then .errored else .opening := by
  obtain ⟨nodes, next⟩ := admitted_waiting channel .none packet
  have expected : (⟨packet, 0⟩ : THPacketNode).seq = (((channel.beforeAdmission .none
      packet).noteReceived packet).enqueue packet).nextExpectedSequence := by
    rw [next]
    exact (congrArg ReliableViews.Inbound.nextExpectedSequence fresh).symm
  have state : (((channel.beforeAdmission .none packet).noteReceived packet).enqueue
      packet).state = if (packet.objectForKey "err").isSome then .errored else .opening := by
    rw [state_admitted, state_superHandlePacket]
    cases packet.objectForKey "err" with
    | none => exact opening
    | some err => rfl
  obtain ⟨once, ends⟩ := seenDeliver_unheard expected
  have sound : channel.state ≠ .errored := by
    rw [opening]
    decide
  have failing : Final channel.state (seenSuperHandlePacket channel .none packet) := by
    refine (final_seenSuperHandlePacket .none packet sound).mpr fun err _ => ?_
    rw [opening]
    exact ⟨by decide, fun _ => rfl, rfl⟩
  have missing : Final (channel.superHandlePacket .none packet).state
      (sentSince (channel.superHandlePacket .none packet)
        (((channel.superHandlePacket .none packet).sawSeq packet).handleMiss packet)) :=
    final_seenMiss ((channel.superHandlePacket .none packet).sawSeq packet) packet
  have handled := last_seenHandlePacket channel none packet
  rw [state_admitted] at state once ends
  rw [state] at missing
  unfold seenHandlePacket at handled ⊢
  simp only [asked, Option.getD_none, nodes, waiting_first fresh first] at handled ⊢
  rw [last_append, last_append, last_seenSuperHandlePacket, last_sentSince, ends, state] at handled
  rw [final_append, final_append, last_append, last_seenSuperHandlePacket, last_sentSince, once,
    state, ← handled]
  simp only [failing, missing, true_and, and_true]
  cases packet.objectForKey "err" <;> simp

end First

/-! ## Packets from the line -/

def seenPass (surroundings : LineDispatch.Surroundings) (packet : THPacket)
    (channel : THReliableChannel) : Seen :=
  let delegate := surroundings.application.delegate
  if LineDispatch.opensAgain packet then
    seenSetState channel delegate .opened ++
      seenHandlePacket (channel.setState delegate .opened) (some delegate) packet
  else seenHandlePacket channel (some delegate) packet

theorem last_seenPass (surroundings : LineDispatch.Surroundings) (packet : THPacket)
    (channel : THReliableChannel) :
    last channel.state (seenPass surroundings packet channel) =
      (LineDispatch.passReliable surroundings packet channel).state := by
  unfold seenPass LineDispatch.passReliable
  split
  · rw [last_append, last_seenSetState, ← state_setState channel, last_seenHandlePacket]
    rfl
  · exact last_seenHandlePacket channel _ packet

/-- The state the packet meets: a first packet that acknowledges nothing opens
the channel again, and the delegate is told. -/
def metState (delegate : Delegate) (packet : THPacket) (state : THChannelState) :
    THChannelState :=
  if LineDispatch.opensAgain packet then
    afterCalls .opened (delegate.didChangeStateTo .opened)
  else state

/-- When what the line passes on to a channel that is neither ended nor errored
is handled once and for all. -/
def PassesOnce (surroundings : LineDispatch.Surroundings) (packet : THPacket)
    (channel : THReliableChannel) : Prop :=
  HandlesOnce surroundings.application.delegate
    (metState surroundings.application.delegate packet channel.state)
    channel.nextExpectedSequence (waiting channel packet) packet

theorem final_seenPass (surroundings : LineDispatch.Surroundings) (packet : THPacket)
    {channel : THReliableChannel} (alive : ¬ channel.state.Halted) :
    Final channel.state (seenPass surroundings packet channel) ↔
      PassesOnce surroundings packet channel := by
  unfold seenPass PassesOnce metState
  split
  · have view := ReliableViews.inbound_setState channel surroundings.application.delegate .opened
    have next : (channel.setState surroundings.application.delegate .opened).nextExpectedSequence =
        channel.nextExpectedSequence := congrArg ReliableViews.Inbound.nextExpectedSequence view
    have same : waiting (channel.setState surroundings.application.delegate .opened) packet =
        waiting channel packet := by rw [waiting, view, waiting]
    have state := state_setState channel surroundings.application.delegate .opened
    have sound : (channel.setState surroundings.application.delegate .opened).state ≠ .errored :=
      fun errored => nomatch afterCalls_errored (state.symm.trans errored)
    rw [final_append, last_seenSetState, final_seenSetState, ← state,
      final_seenHandlePacket _ packet sound, next, same]
    exact and_iff_right ⟨fun halted => absurd halted alive, fun impossible => nomatch impossible⟩
  · exact final_seenHandlePacket _ packet fun errored => alive (Or.inr errored)

end Telehash.ReliableTrace
