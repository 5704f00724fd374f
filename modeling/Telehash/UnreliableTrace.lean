import Telehash.ChannelTrace
import Telehash.LineDispatch

/-!
The traces of an unreliable channel, each beside the condition under which it
is final. Its own setter tells no delegate of a change; an open channel sends
what it has kept back.
-/

namespace Telehash.UnreliableTrace
open Foundation Packet Channel FinalTrace ChannelTrace Runs
open UnreliableChannel THUnreliableChannel

def sentSince (before after : THUnreliableChannel) : Seen :=
  acts ((after.outbox.drop before.outbox.length).map .transmitted)

def seenSend (now : Nat) (channel : THUnreliableChannel) (packet : THPacket) : Seen :=
  sentSince channel (channel.sendPacket now packet)

def seenSetState (channel : THUnreliableChannel) (state : THChannelState) : Seen :=
  .became state :: sentSince channel (channel.setState state)

def seenClose (channel : THUnreliableChannel) (now : Nat) : Seen :=
  if channel.state = .opening ∨ channel.state = .ended then []
  else seenSend now channel endPacket ++ seenSetState (channel.sendPacket now endPacket) .ended

def seenPerform (now : Nat) (channel : THUnreliableChannel) : Call → Seen
  | .sendPacket packet => seenSend now channel packet
  | .close => seenClose channel now

def seenPerformAll (channel : THUnreliableChannel) (now : Nat) (calls : List Call) : Seen :=
  watch (perform now) (seenPerform now) channel calls

def seenSuperHandlePacket (channel : THUnreliableChannel) (delegate : Delegate) (now : Nat)
    (packet : THPacket) : Seen :=
  match packet.objectForKey "err" with
  | none => []
  | some err =>
      seenPerformAll channel now (delegate.didFailWithError err) ++
        seenSetState (channel.performAll now (delegate.didFailWithError err)) .errored

/-- The packet goes to the delegate unless the channel is only opening. -/
def hand (channel : THUnreliableChannel) (delegate : Delegate) (now : Nat) (packet : THPacket) :
    THUnreliableChannel :=
  if channel.state ≠ .opening then channel.performAll now (delegate.handlePacket packet)
  else channel

def seenHand (channel : THUnreliableChannel) (delegate : Option Delegate) (now : Nat)
    (packet : THPacket) : Seen :=
  if channel.state ≠ .opening then
    handed delegate packet ++ seenPerformAll channel now ((asked delegate).handlePacket packet)
  else []

def seenEnd (channel : THUnreliableChannel) (now : Nat) (packet : THPacket) : Seen :=
  if channel.state ≠ .ended ∧ isEnd packet then
    seenSetState channel .ended ++ seenClose (channel.setState .ended) now
  else []

def seenHandlePacket (channel : THUnreliableChannel) (delegate : Option Delegate) (now : Nat)
    (packet : THPacket) : Seen :=
  let typed := (channel.superHandlePacket (asked delegate) now packet).adoptType packet
  seenSuperHandlePacket channel (asked delegate) now packet ++
    seenHand typed delegate now packet ++
      seenEnd (hand typed (asked delegate) now packet) now packet

/-! ## States -/

theorem flush_kept (channel : THUnreliableChannel) (packets : List THPacket) :
    (packets.foldl realSend channel).state = channel.state := by
  induction packets generalizing channel with
  | nil => rfl
  | cons packet rest ih => exact ih (channel.realSend packet)

@[simp] theorem state_setState (channel : THUnreliableChannel) (state : THChannelState) :
    (channel.setState state).state = state := by
  rw [setState_eq]
  split
  · exact flush_kept _ _
  · rfl

@[simp] theorem state_sendPacket (channel : THUnreliableChannel) (now : Nat)
    (packet : THPacket) : (channel.sendPacket now packet).state = channel.state := by
  unfold sendPacket sendAddressed
  split
  · rfl
  · dsimp only
    split <;> rfl

theorem state_close (channel : THUnreliableChannel) (now : Nat) :
    (channel.close now).state = if channel.state = .opening then .opening else .ended := by
  unfold close
  split
  · rename_i quiet
    rcases quiet with opening | ended
    · simp [deregister, opening]
    · simp [deregister, ended]
  · rename_i loud
    rw [if_neg fun same => loud (Or.inl same)]
    exact state_setState (channel.sendPacket now endPacket) .ended

/-! ## Traces of calls -/

@[simp] theorem last_sentSince (state : THChannelState) (before after : THUnreliableChannel) :
    last state (sentSince before after) = state := last_acts _ _

theorem last_seenSend (state : THChannelState) (now : Nat) (channel : THUnreliableChannel)
    (packet : THPacket) : last state (seenSend now channel packet) = state := last_acts _ _

theorem final_seenSend (now : Nat) (channel : THUnreliableChannel) (packet : THPacket) :
    Final channel.state (seenSend now channel packet) := by
  refine (finalFrom_acts _ _).mpr fun halted => ?_
  have quiet : (channel.sendPacket now packet).outbox = channel.outbox := by
    simp [sendPacket, show channel.state.Halted from halted]
  rw [quiet, List.drop_length, List.map_nil]

theorem last_seenSetState (before : THChannelState) (channel : THUnreliableChannel)
    (state : THChannelState) : last before (seenSetState channel state) = state :=
  last_sentSince state channel (channel.setState state)

theorem final_seenSetState (before : THChannelState) (channel : THUnreliableChannel)
    (state : THChannelState) :
    Final before (seenSetState channel state) ↔ (before.Halted → state = before) := by
  refine and_iff_left ((finalFrom_acts _ _).mpr fun halted => ?_)
  have quiet : (channel.setState state).outbox = channel.outbox := by
    unfold setState
    rw [if_neg]
    rintro rfl
    revert halted
    decide
  rw [quiet, List.drop_length, List.map_nil]

theorem last_seenClose (channel : THUnreliableChannel) (now : Nat) :
    last channel.state (seenClose channel now) = (channel.close now).state := by
  unfold seenClose close
  split
  · rfl
  · rw [last_append, last_seenSetState]
    exact (state_setState (channel.sendPacket now endPacket) .ended).symm

theorem final_seenClose (channel : THUnreliableChannel) (now : Nat) :
    Final channel.state (seenClose channel now) ↔ channel.state ≠ .errored := by
  unfold seenClose
  split
  · rename_i quiet
    refine iff_of_true trivial fun errored => ?_
    rw [errored] at quiet
    revert quiet
    decide
  · have sent := final_seenSend now channel endPacket
    rw [final_append, last_seenSend, final_seenSetState]
    refine (and_iff_right sent).trans ?_
    cases channel.state <;> decide

theorem seenClose_ended {channel : THUnreliableChannel} (now : Nat)
    (ended : channel.state = .ended) : seenClose channel now = [] := by
  simp [seenClose, ended]

theorem performs_perform (now : Nat) :
    Performs THUnreliableChannel.state (perform now) (seenPerform now) where
  sends channel packet := state_sendPacket channel now packet
  closes channel := state_close channel now
  follows channel call := by
    cases call with
    | sendPacket packet => simp [seenPerform, seenSend, perform]
    | close => exact last_seenClose channel now
  sending := final_seenSend now
  closing channel := final_seenClose channel now

theorem state_performAll (channel : THUnreliableChannel) (now : Nat) (calls : List Call) :
    (channel.performAll now calls).state = afterCalls channel.state calls :=
  state_calls (performs_perform now) channel calls

theorem last_seenPerformAll (channel : THUnreliableChannel) (now : Nat) (calls : List Call) :
    last channel.state (seenPerformAll channel now calls) = afterCalls channel.state calls :=
  last_calls (performs_perform now) channel calls

theorem final_seenPerformAll (channel : THUnreliableChannel) (now : Nat) (calls : List Call) :
    Final channel.state (seenPerformAll channel now calls) ↔
      (channel.state = .errored → closes calls = false) :=
  final_calls (performs_perform now) channel calls

/-! ## Traces of arrivals -/

theorem state_superHandlePacket (channel : THUnreliableChannel) (delegate : Delegate)
    (now : Nat) (packet : THPacket) :
    (channel.superHandlePacket delegate now packet).state =
      match packet.objectForKey "err" with
      | none => channel.state
      | some _ => .errored := by
  unfold superHandlePacket
  cases packet.objectForKey "err" with
  | none => rfl
  | some err =>
      exact state_setState (channel.performAll now (delegate.didFailWithError err)) .errored

theorem last_seenSuperHandlePacket (channel : THUnreliableChannel) (delegate : Delegate)
    (now : Nat) (packet : THPacket) :
    last channel.state (seenSuperHandlePacket channel delegate now packet) =
      (channel.superHandlePacket delegate now packet).state := by
  rw [state_superHandlePacket]
  unfold seenSuperHandlePacket
  cases packet.objectForKey "err" with
  | none => rfl
  | some err => rw [last_append, last_seenSetState]

theorem state_hand (channel : THUnreliableChannel) (delegate : Delegate) (now : Nat)
    (packet : THPacket) :
    (hand channel delegate now packet).state =
      afterCalls channel.state (delegate.handlePacket packet) := by
  unfold hand
  split
  · exact state_performAll channel now _
  · rename_i opening
    rw [not_not.mp opening, afterCalls_opening]

theorem last_seenHand (channel : THUnreliableChannel) (delegate : Option Delegate) (now : Nat)
    (packet : THPacket) :
    last channel.state (seenHand channel delegate now packet) =
      (hand channel (asked delegate) now packet).state := by
  unfold seenHand hand
  split
  · rw [last_append, last_handed, last_seenPerformAll, state_performAll]
  · rfl

theorem final_seenHand (channel : THUnreliableChannel) (delegate : Delegate) (now : Nat)
    (packet : THPacket) :
    Final channel.state (seenHand channel (some delegate) now packet) ↔
      ¬ channel.state.Halted := by
  unfold seenHand
  split
  · rw [final_append, last_handed, final_handed, final_seenPerformAll]
    simp only [reduceCtorEq, imp_false, and_iff_left_iff_imp]
    exact fun alive errored => absurd (Or.inr errored) alive
  · rename_i opening
    rw [not_not.mp opening]
    exact iff_of_true trivial (by decide)

theorem state_end (channel : THUnreliableChannel) (now : Nat) (packet : THPacket) :
    (if channel.state ≠ .ended ∧ isEnd packet then (channel.setState .ended).close now
      else channel).state = if isEnd packet then .ended else channel.state := by
  split
  · rename_i ends
    rw [state_close, state_setState, if_pos ends.2]
    rfl
  · rename_i goesOn
    by_cases ended : channel.state = .ended
    · simp [ended]
    · rw [if_neg fun ends => goesOn ⟨ended, ends⟩]

theorem last_seenEnd (channel : THUnreliableChannel) (now : Nat) (packet : THPacket) :
    last channel.state (seenEnd channel now packet) =
      if isEnd packet then .ended else channel.state := by
  rw [← state_end channel now]
  unfold seenEnd
  split
  · have ended := state_setState channel .ended
    have closed := state_close (channel.setState .ended) now
    rw [last_append, last_seenSetState, seenClose_ended now ended, closed, ended]
    rfl
  · rfl

theorem final_seenEnd (channel : THUnreliableChannel) (now : Nat) (packet : THPacket) :
    Final channel.state (seenEnd channel now packet) ↔
      (channel.state = .errored → isEnd packet = false) := by
  unfold seenEnd
  split
  · rename_i ends
    rw [seenClose_ended now (state_setState channel .ended), List.append_nil, final_seenSetState,
      ends.2]
    cases channel.state <;> decide
  · rename_i goesOn
    refine iff_of_true trivial fun errored => ?_
    rw [errored] at goesOn
    simpa using goesOn

theorem last_seenHandlePacket (channel : THUnreliableChannel) (delegate : Option Delegate)
    (now : Nat) (packet : THPacket) :
    last channel.state (seenHandlePacket channel delegate now packet) =
      (channel.handlePacket (asked delegate) now packet).state := by
  let typed := (channel.superHandlePacket (asked delegate) now packet).adoptType packet
  have reached : last channel.state
      (seenSuperHandlePacket channel (asked delegate) now packet) = typed.state :=
    last_seenSuperHandlePacket channel (asked delegate) now packet
  unfold seenHandlePacket
  rw [last_append, last_append, reached, last_seenHand, last_seenEnd, ← state_end _ now]
  rfl

/-- A packet without an error is handled once and for all. One with an error
never is: its delegate is handed it after the channel has failed. -/
theorem final_seenHandlePacket {channel : THUnreliableChannel} (delegate : Delegate) (now : Nat)
    (packet : THPacket) (alive : ¬ channel.state.Halted) :
    Final channel.state (seenHandlePacket channel (some delegate) now packet) ↔
      packet.objectForKey "err" = none := by
  let typed := (channel.superHandlePacket delegate now packet).adoptType packet
  have reached : last channel.state (seenSuperHandlePacket channel delegate now packet) =
      typed.state := last_seenSuperHandlePacket channel delegate now packet
  have handing : last typed.state (seenHand typed (some delegate) now packet) =
      (hand typed delegate now packet).state := last_seenHand typed (some delegate) now packet
  have state := state_superHandlePacket channel delegate now packet
  unfold seenHandlePacket
  rw [final_append, final_append, last_append]
  simp only [asked, Option.getD_some]
  rw [reached, handing, final_seenHand, final_seenEnd]
  cases found : packet.objectForKey "err" with
  | some err =>
      simp only [found] at state
      have errored : typed.state.Halted := Or.inr state
      exact iff_of_false (fun all => all.1.2 errored) nofun
  | none =>
      simp only [found] at state
      have quiet : seenSuperHandlePacket channel delegate now packet = [] := by
        simp [seenSuperHandlePacket, found]
      refine iff_of_true ⟨⟨?_, ?_⟩, fun errored => ?_⟩ rfl
      · rw [quiet]
        trivial
      · exact fun halted => alive (state ▸ halted)
      · rw [state_hand] at errored
        have before := state.symm.trans (afterCalls_errored errored)
        exact absurd (Or.inr before) alive

/-- The first packet of a channel made for it: with no delegate to hear of it,
it is final unless it both fails and ends the channel. -/
theorem first_handled {channel : THUnreliableChannel} (now : Nat) (packet : THPacket)
    (opening : channel.state = .opening) :
    (Final channel.state (seenHandlePacket channel none now packet) ↔
        (isEnd packet = true → packet.objectForKey "err" = none)) ∧
      (channel.handlePacket .none now packet).state =
        if isEnd packet then .ended
        else if (packet.objectForKey "err").isSome then .errored else .opening := by
  let typed := (channel.superHandlePacket .none now packet).adoptType packet
  have state : typed.state =
      if (packet.objectForKey "err").isSome then .errored else .opening := by
    refine (state_superHandlePacket channel .none now packet).trans ?_
    cases packet.objectForKey "err" with
    | none => exact opening
    | some err => rfl
  have failing : Final channel.state (seenSuperHandlePacket channel .none now packet) := by
    unfold seenSuperHandlePacket
    cases packet.objectForKey "err" with
    | none => trivial
    | some err =>
        refine (final_seenSetState channel.state (channel.performAll now []) .errored).mpr ?_
        rw [opening]
        decide
  have reached : last channel.state (seenSuperHandlePacket channel .none now packet) =
      typed.state := last_seenSuperHandlePacket channel .none now packet
  have unheard : seenHand typed none now packet = [] := by
    unfold seenHand
    split <;> rfl
  have same : (hand typed .none now packet).state = typed.state := by
    rw [state_hand]
    rfl
  have handled := last_seenHandlePacket channel none now packet
  have whole : seenHandlePacket channel none now packet =
      seenSuperHandlePacket channel .none now packet ++
        seenEnd (hand typed .none now packet) now packet := by
    have joined : seenHandlePacket channel none now packet =
        seenSuperHandlePacket channel .none now packet ++ seenHand typed none now packet ++
          seenEnd (hand typed .none now packet) now packet := rfl
    rw [joined, unheard, List.append_nil]
  rw [whole, last_append, reached, ← same, last_seenEnd, same, state] at handled
  rw [whole, final_append, reached, ← same, final_seenEnd, same, state]
  refine ⟨(and_iff_right failing).trans ?_, handled.symm⟩
  cases packet.objectForKey "err" <;> simp

/-! ## Packets from the line -/

def seenPass (surroundings : LineDispatch.Surroundings) (packet : THPacket)
    (channel : THUnreliableChannel) : Seen :=
  let delegate := LineDispatch.delegateOf surroundings channel
  if LineDispatch.opensAgain packet then
    seenSetState channel .opened ++
      seenHandlePacket (channel.setState .opened) (some delegate) surroundings.now packet
  else seenHandlePacket channel (some delegate) surroundings.now packet

theorem last_seenPass (surroundings : LineDispatch.Surroundings) (packet : THPacket)
    (channel : THUnreliableChannel) :
    last channel.state (seenPass surroundings packet channel) =
      (LineDispatch.passUnreliable surroundings packet channel).state := by
  unfold seenPass LineDispatch.passUnreliable
  split
  · have handled := last_seenHandlePacket (channel.setState .opened)
      (some (LineDispatch.delegateOf surroundings channel)) surroundings.now packet
    rw [state_setState] at handled
    rw [last_append, last_seenSetState, handled]
    rfl
  · exact last_seenHandlePacket channel _ _ packet

theorem final_seenPass (surroundings : LineDispatch.Surroundings) (packet : THPacket)
    {channel : THUnreliableChannel} (alive : ¬ channel.state.Halted) :
    Final channel.state (seenPass surroundings packet channel) ↔
      packet.objectForKey "err" = none := by
  unfold seenPass
  split
  · have opened_ := state_setState channel .opened
    have awake : ¬ (channel.setState .opened).state.Halted := by
      rw [opened_]
      decide
    have handled := final_seenHandlePacket (LineDispatch.delegateOf surroundings channel)
      surroundings.now packet awake
    rw [opened_] at handled
    rw [final_append, last_seenSetState, final_seenSetState, handled]
    exact and_iff_right fun halted => absurd halted alive
  · exact final_seenHandlePacket _ _ packet alive

end Telehash.UnreliableTrace
