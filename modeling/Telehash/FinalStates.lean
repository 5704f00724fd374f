import Telehash.LiveChannels
import Telehash.ReliableTrace
import Telehash.UnreliableTrace

/-!
The life of one channel. It is opened here by `channel:line:firstPacket:` of
THSwitch.m or made by the line for a packet of an unknown channel. Then packets
reach it through the line for as long as it is in the table, the application
sends on it and closes it, its timer runs out, the line is opened again and the
identity drops its channels, in any order.
-/

namespace Telehash.FinalStates
open Foundation Packet PacketBuffer Channel LineDispatch FinalTrace ChannelTrace LiveChannels Runs
open ReliableChannel (THReliableChannel)
open UnreliableChannel (THUnreliableChannel)

def stateOf : THChannel → THChannelState
  | .reliable channel => channel.state
  | .unreliable channel => channel.state

def inTable : THChannel → Bool
  | .reliable channel => channel.registered
  | .unreliable channel => channel.registered

/-! ## How a channel comes to be -/

inductive Origin where
  -- opened by the switch, after the application has sent on it already
  | reliable (surroundings : Surroundings) (channelId : Nat) (early : List THPacket)
  | unreliable (surroundings : Surroundings) (channelId : Nat)
      (delegate : UnreliableChannel.THChannelDelegate) (early : List THPacket)
  -- made by the line for a typed packet
  | made (surroundings : Surroundings) (channelId : Nat) (type : String) (packet : THPacket)

def earlyReliable (surroundings : Surroundings) (channelId : Nat) (early : List THPacket) :
    THReliableChannel :=
  (ReliableChannel.initToIdentity channelId).performAll surroundings.application.delegate
    (early.map .sendPacket)

def earlyUnreliable (surroundings : Surroundings) (channelId : Nat)
    (delegate : UnreliableChannel.THChannelDelegate) (early : List THPacket) :
    THUnreliableChannel :=
  (UnreliableChannel.initToIdentity channelId delegate).performAll surroundings.now
    (early.map .sendPacket)

def born : Origin → THChannel
  | .reliable surroundings channelId early =>
      .reliable ((earlyReliable surroundings channelId early).setState
        surroundings.application.delegate .opened)
  | .unreliable surroundings channelId delegate early =>
      .unreliable ((earlyUnreliable surroundings channelId delegate early).setState .opened)
  | .made surroundings channelId type packet =>
      if seqOf packet = some 0 then
        .reliable (newReliable surroundings channelId (some (.string type)) packet)
      else .unreliable (newUnreliable surroundings channelId (some (.string type)) packet)

def seenNewReliable (surroundings : Surroundings) (channelId : Nat) (type : Option Json)
    (packet : THPacket) : Seen :=
  let application := surroundings.application
  let channel := { ReliableChannel.initToIdentity channelId with type := type }
  let handled := channel.handlePacket .none packet
  ReliableTrace.seenHandlePacket channel none packet ++
    ReliableTrace.seenSetState handled .none .opened ++
      ReliableTrace.seenPerformAll (handled.setState .none .opened) application.delegate
        (application.channelReady .reliableChannel packet)

def seenNewUnreliable (surroundings : Surroundings) (channelId : Nat) (type : Option Json)
    (packet : THPacket) : Seen :=
  let application := surroundings.application
  let channel := { UnreliableChannel.initToIdentity channelId .application with type := type }
  let handled := channel.handlePacket .none surroundings.now packet
  UnreliableTrace.seenHandlePacket channel none surroundings.now packet ++
    UnreliableTrace.seenSetState handled .opened ++
      UnreliableTrace.seenPerformAll (handled.setState .opened) surroundings.now
        (application.channelReady .unreliableChannel packet)

def seenBirth : Origin → Seen
  | .reliable surroundings channelId early =>
      ReliableTrace.seenPerformAll (ReliableChannel.initToIdentity channelId)
          surroundings.application.delegate (early.map .sendPacket) ++
        ReliableTrace.seenSetState (earlyReliable surroundings channelId early)
          surroundings.application.delegate .opened
  | .unreliable surroundings channelId delegate early =>
      UnreliableTrace.seenPerformAll (UnreliableChannel.initToIdentity channelId delegate)
          surroundings.now (early.map .sendPacket) ++
        UnreliableTrace.seenSetState (earlyUnreliable surroundings channelId delegate early)
          .opened
  | .made surroundings channelId type packet =>
      if seqOf packet = some 0 then
        seenNewReliable surroundings channelId (some (.string type)) packet
      else seenNewUnreliable surroundings channelId (some (.string type)) packet

/-! ## What happens to it -/

inductive Event where
  | arrives (surroundings : Surroundings) (packet : THPacket)
  | sendPacket (now : Nat) (packet : THPacket)
  | close (surroundings : Surroundings)
  | ackPing
  -- `openLine` of THLine.m, and `closeChannels` of THIdentity.m
  | openLine
  | closeChannels (surroundings : Surroundings)

def stepReliable (channel : THReliableChannel) : Event → THReliableChannel
  | .arrives surroundings packet =>
      if channel.registered then passReliable surroundings packet channel else channel
  | .sendPacket _ packet => channel.sendPacket packet
  | .close surroundings => channel.close surroundings.application.delegate
  | .ackPing => channel.ackPing
  | .openLine =>
      if channel.registered ∧ channel.state ≠ .opened then channel.flushOut else channel
  | .closeChannels surroundings =>
      if channel.registered then
        (channel.setState surroundings.application.delegate .ended).deregister
      else channel

def stepUnreliable (channel : THUnreliableChannel) : Event → THUnreliableChannel
  | .arrives surroundings packet =>
      if channel.registered then passUnreliable surroundings packet channel else channel
  | .sendPacket now packet => channel.sendPacket now packet
  | .close surroundings => channel.close surroundings.now
  | .ackPing => channel
  | .openLine => channel
  | .closeChannels _ =>
      if channel.registered then (channel.setState .ended).deregister else channel

def step (channel : THChannel) (event : Event) : THChannel :=
  match channel with
  | .reliable channel => .reliable (stepReliable channel event)
  | .unreliable channel => .unreliable (stepUnreliable channel event)

def seenReliable (channel : THReliableChannel) : Event → Seen
  | .arrives surroundings packet =>
      if channel.registered then ReliableTrace.seenPass surroundings packet channel else []
  | .sendPacket _ packet => ReliableTrace.seenSend channel packet
  | .close surroundings => ReliableTrace.seenClose channel surroundings.application.delegate
  | .ackPing => ReliableTrace.sentSince channel channel.ackPing
  | .openLine =>
      if channel.registered ∧ channel.state ≠ .opened then
        ReliableTrace.sentSince channel channel.flushOut
      else []
  | .closeChannels surroundings =>
      if channel.registered then
        ReliableTrace.seenSetState channel surroundings.application.delegate .ended
      else []

def seenUnreliable (channel : THUnreliableChannel) : Event → Seen
  | .arrives surroundings packet =>
      if channel.registered then UnreliableTrace.seenPass surroundings packet channel else []
  | .sendPacket now packet => UnreliableTrace.seenSend now channel packet
  | .close surroundings => UnreliableTrace.seenClose channel surroundings.now
  | .ackPing => []
  | .openLine => []
  | .closeChannels _ =>
      if channel.registered then UnreliableTrace.seenSetState channel .ended else []

def seen (channel : THChannel) (event : Event) : Seen :=
  match channel with
  | .reliable channel => seenReliable channel event
  | .unreliable channel => seenUnreliable channel event

def seenLife (origin : Origin) (events : List Event) : Seen :=
  seenBirth origin ++ watch step seen (born origin) events

/-! ## What the line does is this -/

/-- A channel back in the table is the one the event leaves. -/
theorem channelBranch_arrives {side : LineSide} {channelId : Nat} {channel : THChannel}
    (surroundings : Surroundings) (type : Option String) (packet : THPacket)
    (held : side.channels.lookup channelId = some channel) (there : inTable channel = true) :
    side.channelBranch surroundings channelId type packet =
      side.store channelId (step channel (.arrives surroundings packet)) := by
  cases channel with
  | reliable channel =>
      have registered : channel.registered = true := there
      simp [LineSide.channelBranch, held, step, stepReliable, registered, passPacket]
  | unreliable channel =>
      have registered : channel.registered = true := there
      simp [LineSide.channelBranch, held, step, stepUnreliable, registered, passPacket]

theorem unknownChannel_made (side : LineSide) (surroundings : Surroundings) (channelId : Nat)
    (type : String) (packet : THPacket) :
    ∃ kind, side.unknownChannel surroundings channelId (some type) packet =
      (side.noteCreated channelId kind).store channelId
        (born (.made surroundings channelId type packet)) := by
  by_cases first : seqOf packet = some 0
  · exact ⟨.reliableChannel, by simp [LineSide.unknownChannel, born, first]⟩
  · exact ⟨.unreliableChannel, by simp [LineSide.unknownChannel, born, first]⟩

/-! ## The trace follows the states -/

theorem last_seenReliable (channel : THReliableChannel) (event : Event) :
    last channel.state (seenReliable channel event) = (stepReliable channel event).state := by
  cases event with
  | arrives surroundings packet =>
      simp only [seenReliable, stepReliable]
      split
      · exact ReliableTrace.last_seenPass surroundings packet channel
      · rfl
  | sendPacket now packet =>
      exact (ReliableTrace.last_seenSend _ channel packet).trans
        (ReliableChannel.THReliableChannel.state_sendPacket channel packet).symm
  | close surroundings => exact ReliableTrace.last_seenClose channel _
  | ackPing =>
      simp only [seenReliable, stepReliable, ReliableTrace.last_sentSince,
        ReliableChannel.THReliableChannel.ackPing]
      split
      · exact (ReliableChannel.THReliableChannel.state_sendPacket channel _).symm
      · rfl
  | openLine =>
      simp only [seenReliable, stepReliable]
      split
      · exact ReliableTrace.last_sentSince _ _ _
      · rfl
  | closeChannels surroundings =>
      simp only [seenReliable, stepReliable]
      split
      · exact (ReliableTrace.last_seenSetState _ channel _ .ended).trans
          (ReliableTrace.state_setState channel _ .ended).symm
      · rfl

theorem last_seenUnreliable (channel : THUnreliableChannel) (event : Event) :
    last channel.state (seenUnreliable channel event) = (stepUnreliable channel event).state := by
  cases event with
  | arrives surroundings packet =>
      simp only [seenUnreliable, stepUnreliable]
      split
      · exact UnreliableTrace.last_seenPass surroundings packet channel
      · rfl
  | sendPacket now packet =>
      exact (UnreliableTrace.last_seenSend _ now channel packet).trans
        (UnreliableTrace.state_sendPacket channel now packet).symm
  | close surroundings => exact UnreliableTrace.last_seenClose channel _
  | ackPing | openLine => rfl
  | closeChannels surroundings =>
      simp only [seenUnreliable, stepUnreliable]
      split
      · exact (UnreliableTrace.last_seenSetState _ channel .ended).trans
          (UnreliableTrace.state_setState channel .ended).symm
      · rfl

theorem last_seen (channel : THChannel) (event : Event) :
    last (stateOf channel) (seen channel event) = stateOf (step channel event) := by
  cases channel with
  | reliable channel => exact last_seenReliable channel event
  | unreliable channel => exact last_seenUnreliable channel event

/-! ## Channels in the table -/

def Live (channel : THChannel) : Prop := inTable channel = true → ¬ (stateOf channel).Halted

theorem live_stepReliable {channel : THReliableChannel} (event : Event)
    (live : Reliable.Live channel) : Reliable.Live (stepReliable channel event) := by
  cases event with
  | arrives surroundings packet =>
      simp only [stepReliable]
      split
      · exact Reliable.live_passReliable live surroundings packet
      · exact live
  | sendPacket now packet => exact Reliable.live_sendPacket live packet
  | close surroundings => exact Reliable.live_left (Reliable.left_close channel _)
  | ackPing =>
      simp only [stepReliable, ReliableChannel.THReliableChannel.ackPing]
      split
      · exact Reliable.live_sendPacket live _
      · exact live
  | openLine =>
      simp only [stepReliable]
      split <;> exact live
  | closeChannels surroundings =>
      simp only [stepReliable]
      split
      · exact Reliable.live_left rfl
      · exact live

theorem live_stepUnreliable {channel : THUnreliableChannel} (event : Event)
    (live : Unreliable.Live channel) : Unreliable.Live (stepUnreliable channel event) := by
  cases event with
  | arrives surroundings packet =>
      simp only [stepUnreliable]
      split
      · exact Unreliable.live_passUnreliable live surroundings packet
      · exact live
  | sendPacket now packet => exact Unreliable.live_sendPacket live now packet
  | close surroundings => exact Unreliable.live_left (Unreliable.left_close channel _)
  | ackPing | openLine => exact live
  | closeChannels surroundings =>
      simp only [stepUnreliable]
      split
      · exact Unreliable.live_left rfl
      · exact live

theorem live_step (channel : THChannel) (event : Event) (live : Live channel) :
    Live (step channel event) := by
  cases channel with
  | reliable channel => exact live_stepReliable event live
  | unreliable channel => exact live_stepUnreliable event live

theorem live_born (origin : Origin) : Live (born origin) := by
  cases origin with
  | reliable surroundings channelId early =>
      exact Reliable.live_setState _ _ (by decide)
  | unreliable surroundings channelId delegate early =>
      exact Unreliable.live_setState _ (by decide)
  | made surroundings channelId type packet =>
      simp only [born]
      split
      · exact Reliable.live_performAll (Reliable.live_setState _ _ (by decide)) _ _
      · exact Unreliable.live_performAll (Unreliable.live_setState _ (by decide)) _ _

/-! ## When a step is final -/

/-- A channel is not closed after it has failed. What reaches an unreliable
channel carries no error, and what reaches a reliable one is handled once and
for all by what was so before. -/
def EndsOnce (channel : THChannel) : Event → Prop
  | .arrives surroundings packet =>
      inTable channel = true →
        match channel with
        | .reliable channel => ReliableTrace.PassesOnce surroundings packet channel
        | .unreliable _ => packet.objectForKey "err" = none
  | .close _ => stateOf channel ≠ .errored
  | _ => True

/-- The packet that makes the line make a channel neither fails nor ends it. -/
def BornOnce : Origin → Prop
  | .made _ _ _ packet => packet.objectForKey "err" = none ∧ isEnd packet = false
  | _ => True

theorem final_seenReliable {channel : THReliableChannel} (event : Event)
    (live : Reliable.Live channel) :
    Final channel.state (seenReliable channel event) ↔ EndsOnce (.reliable channel) event := by
  cases event with
  | arrives surroundings packet =>
      by_cases there : channel.registered = true
      · simp only [seenReliable, there, ↓reduceIte]
        exact (ReliableTrace.final_seenPass surroundings packet (live there)).trans
          ⟨fun once _ => once, fun once => once there⟩
      · simp only [seenReliable, there]
        exact iff_of_true trivial fun registered => absurd registered there
  | sendPacket now packet => exact iff_of_true (ReliableTrace.final_seenSend channel packet) trivial
  | close surroundings => exact ReliableTrace.final_seenClose channel _
  | ackPing =>
      refine iff_of_true (ReliableTrace.final_sentSince _ fun halted => ?_) trivial
      unfold ReliableChannel.THReliableChannel.ackPing
      split
      · exact ReliableTrace.transmitted_halted halted _
      · rfl
  | openLine =>
      refine iff_of_true ?_ trivial
      simp only [seenReliable]
      split
      · rename_i there
        exact ReliableTrace.final_sentSince _ fun halted => absurd halted (live there.1)
      · trivial
  | closeChannels surroundings =>
      refine iff_of_true ?_ trivial
      simp only [seenReliable]
      split
      · rename_i there
        exact (ReliableTrace.final_seenSetState _ channel _ .ended).mpr
          ⟨fun halted => absurd halted (live there), fun impossible => nomatch impossible⟩
      · trivial

theorem final_seenUnreliable {channel : THUnreliableChannel} (event : Event)
    (live : Unreliable.Live channel) :
    Final channel.state (seenUnreliable channel event) ↔ EndsOnce (.unreliable channel) event := by
  cases event with
  | arrives surroundings packet =>
      by_cases there : channel.registered = true
      · simp only [seenUnreliable, there, ↓reduceIte]
        exact (UnreliableTrace.final_seenPass surroundings packet (live there)).trans
          ⟨fun once _ => once, fun once => once there⟩
      · simp only [seenUnreliable, there]
        exact iff_of_true trivial fun registered => absurd registered there
  | sendPacket now packet =>
      exact iff_of_true (UnreliableTrace.final_seenSend now channel packet) trivial
  | close surroundings => exact UnreliableTrace.final_seenClose channel _
  | ackPing | openLine => exact iff_of_true trivial trivial
  | closeChannels surroundings =>
      refine iff_of_true ?_ trivial
      simp only [seenUnreliable]
      split
      · rename_i there
        exact (UnreliableTrace.final_seenSetState _ channel .ended).mpr
          fun halted => absurd halted (live there)
      · trivial

theorem final_seen {channel : THChannel} (event : Event) (live : Live channel) :
    Final (stateOf channel) (seen channel event) ↔ EndsOnce channel event := by
  cases channel with
  | reliable channel => exact final_seenReliable event live
  | unreliable channel => exact final_seenUnreliable event live

/-! ## When a birth is final -/

/-- The line sets the state once the packet has been handled. -/
theorem final_made {packet : THPacket} {handling opening_ calling : Seen}
    {state : THChannelState}
    (once : Final .opening handling ↔ (isEnd packet = true → packet.objectForKey "err" = none))
    (reached : last .opening handling = state)
    (left : state = if isEnd packet then .ended
      else if (packet.objectForKey "err").isSome then .errored else .opening)
    (opens : Final state opening_ ↔ (state.Halted → .opened = state))
    (calls : Final (last state opening_) calling) :
    Final .opening (handling ++ opening_ ++ calling) ↔
      packet.objectForKey "err" = none ∧ isEnd packet = false := by
  rw [final_append, final_append, last_append, reached, once, opens]
  refine (and_iff_left calls).trans ?_
  rw [left]
  cases isEnd packet <;> cases packet.objectForKey "err" <;> simp [THChannelState.Halted]

theorem final_newReliable (surroundings : Surroundings) (channelId : Nat) (type : Option Json)
    {packet : THPacket} (first : seqOf packet = some 0) :
    Final .opening (seenNewReliable surroundings channelId type packet) ↔
      packet.objectForKey "err" = none ∧ isEnd packet = false := by
  let channel : THReliableChannel :=
    { ReliableChannel.initToIdentity channelId with type := type }
  let handled := channel.handlePacket .none packet
  have fresh : ReliableViews.inbound channel =
      ReliableViews.inbound (ReliableChannel.initToIdentity 0) := rfl
  obtain ⟨once, left⟩ := ReliableTrace.first_handled fresh first rfl
  refine final_made once (ReliableTrace.last_seenHandlePacket channel none packet) left
    ((ReliableTrace.final_seenSetState _ handled .none .opened).trans (and_iff_left nofun)) ?_
  have calling := ReliableTrace.final_seenPerformAll (handled.setState .none .opened)
    surroundings.application.delegate
    (surroundings.application.channelReady .reliableChannel packet)
  have opened_ : (handled.setState .none .opened).state = .opened :=
    ReliableTrace.state_setState handled .none .opened
  rw [opened_] at calling
  rw [ReliableTrace.last_seenSetState]
  exact calling.mpr nofun

theorem final_newUnreliable (surroundings : Surroundings) (channelId : Nat) (type : Option Json)
    (packet : THPacket) :
    Final .opening (seenNewUnreliable surroundings channelId type packet) ↔
      packet.objectForKey "err" = none ∧ isEnd packet = false := by
  let channel : THUnreliableChannel :=
    { UnreliableChannel.initToIdentity channelId .application with type := type }
  let handled := channel.handlePacket .none surroundings.now packet
  have opening : channel.state = .opening := rfl
  obtain ⟨once, left⟩ := UnreliableTrace.first_handled surroundings.now packet opening
  refine final_made once
    (UnreliableTrace.last_seenHandlePacket channel none surroundings.now packet) left
    (UnreliableTrace.final_seenSetState _ handled .opened) ?_
  have calling := UnreliableTrace.final_seenPerformAll (handled.setState .opened)
    surroundings.now (surroundings.application.channelReady .unreliableChannel packet)
  rw [UnreliableTrace.state_setState handled .opened] at calling
  rw [UnreliableTrace.last_seenSetState]
  exact calling.mpr nofun

theorem closes_sends (early : List THPacket) : closes (early.map .sendPacket) = false := by
  induction early with
  | nil => rfl
  | cons packet rest ih => exact ih

theorem final_birth (origin : Origin) : Final .opening (seenBirth origin) ↔ BornOnce origin := by
  cases origin with
  | reliable surroundings channelId early =>
      refine iff_of_true ?_ trivial
      have sends := ReliableTrace.final_seenPerformAll (ReliableChannel.initToIdentity channelId)
        surroundings.application.delegate (early.map .sendPacket)
      have reached := ReliableTrace.last_seenPerformAll
        (ReliableChannel.initToIdentity channelId) surroundings.application.delegate
        (early.map .sendPacket)
      refine (final_append _ _ _).mpr ⟨sends.mpr fun _ => closes_sends early, ?_⟩
      have opening : last .opening (ReliableTrace.seenPerformAll
          (ReliableChannel.initToIdentity channelId) surroundings.application.delegate
          (early.map .sendPacket)) = .opening := reached.trans (afterCalls_opening _)
      rw [opening, ReliableTrace.final_seenSetState]
      exact ⟨by decide, nofun⟩
  | unreliable surroundings channelId delegate early =>
      refine iff_of_true ?_ trivial
      have sends := UnreliableTrace.final_seenPerformAll
        (UnreliableChannel.initToIdentity channelId delegate) surroundings.now
        (early.map .sendPacket)
      have reached := UnreliableTrace.last_seenPerformAll
        (UnreliableChannel.initToIdentity channelId delegate) surroundings.now
        (early.map .sendPacket)
      refine (final_append _ _ _).mpr ⟨sends.mpr fun _ => closes_sends early, ?_⟩
      have opening : last .opening (UnreliableTrace.seenPerformAll
          (UnreliableChannel.initToIdentity channelId delegate) surroundings.now
          (early.map .sendPacket)) = .opening := reached.trans (afterCalls_opening _)
      rw [opening, UnreliableTrace.final_seenSetState]
      decide
  | made surroundings channelId type packet =>
      simp only [seenBirth]
      split
      · rename_i first
        exact final_newReliable surroundings channelId _ first
      · exact final_newUnreliable surroundings channelId _ packet

theorem state_born (origin : Origin) :
    last .opening (seenBirth origin) = stateOf (born origin) := by
  cases origin with
  | reliable surroundings channelId early =>
      have opened_ := ReliableTrace.state_setState (earlyReliable surroundings channelId early)
        surroundings.application.delegate .opened
      rw [seenBirth, last_append, ReliableTrace.last_seenSetState]
      exact opened_.symm
  | unreliable surroundings channelId delegate early =>
      have opened_ := UnreliableTrace.state_setState
        (earlyUnreliable surroundings channelId delegate early) .opened
      rw [seenBirth, last_append, UnreliableTrace.last_seenSetState]
      exact opened_.symm
  | made surroundings channelId type packet =>
      simp only [seenBirth, born]
      split
      · have opened_ := ReliableTrace.state_setState (({ ReliableChannel.initToIdentity channelId
          with type := some (.string type) } : THReliableChannel).handlePacket .none packet)
          .none .opened
        rw [seenNewReliable, last_append, last_append, ReliableTrace.last_seenSetState, ← opened_,
          ReliableTrace.last_seenPerformAll, ← ReliableTrace.state_performAll]
        rfl
      · have opened_ := UnreliableTrace.state_setState
          (({ UnreliableChannel.initToIdentity channelId .application with
            type := some (.string type) } : THUnreliableChannel).handlePacket .none
              surroundings.now packet) .opened
        have calls := UnreliableTrace.last_seenPerformAll
          ((({ UnreliableChannel.initToIdentity channelId .application with
            type := some (.string type) } : THUnreliableChannel).handlePacket .none
              surroundings.now packet).setState .opened) surroundings.now
          (surroundings.application.channelReady .unreliableChannel packet)
        rw [← UnreliableTrace.state_performAll, opened_] at calls
        rw [seenNewUnreliable, last_append, last_append, UnreliableTrace.last_seenSetState]
        exact calls

/-! ## Whole lives -/

/-- From the first final state on nothing is seen but that state again. -/
def FinalOnce (seen : Seen) : Prop :=
  ∀ before next after, seen = before ++ next :: after → (last .opening before).Halted →
    next = .became (last .opening before)

theorem finalOnce_iff (seen : Seen) : FinalOnce seen ↔ Final .opening seen :=
  (finalFrom_iff THChannelState.opening seen).symm

/-- A channel's whole life is final exactly when it was made by a packet that
neither fails nor ends it, and each thing that happens to it ends it once. -/
theorem final_states_iff (origin : Origin) (events : List Event) :
    FinalOnce (seenLife origin events) ↔
      BornOnce origin ∧ Along step EndsOnce (born origin) events := by
  have life : Final (stateOf (born origin)) (watch step seen (born origin) events) ↔
      Along step (fun channel event => Final (stateOf channel) (seen channel event))
        (born origin) events := finalFrom_watch last_seen (born origin) events
  have each : Along step (fun channel event => Final (stateOf channel) (seen channel event))
      (born origin) events ↔ Along step EndsOnce (born origin) events :=
    along_congr_invariant (fun channel event _ live => live_step channel event live)
      (fun channel event _ live => final_seen event live) (born origin) events
      (live_born origin) (along_true _ _)
  rw [finalOnce_iff, seenLife, final_append, state_born]
  exact and_congr (final_birth origin) (life.trans each)

def silent : Surroundings := ⟨0, [], ⟨.none, fun _ _ => []⟩⟩

def helloEnd : THPacket :=
  (((THPacket.new.setObject (.string "hello") "type").setObject (.bool true) "end").setObject
    (.number 0) "seq").setObject (.number 1) "c"

/-- A channel made for one packet that opens and ends it is open again when the
line is done with the packet. -/
theorem single_packet_reopens :
    ¬ ∀ origin events, FinalOnce (seenLife origin events) := by
  intro always
  have once := (finalOnce_iff _).mp (always (.made silent 1 "hello" helloEnd) [])
  rw [seenLife, final_append] at once
  have ends : isEnd helloEnd = true := by decide
  have goesOn := ((final_birth _).mp once.1).2
  rw [ends] at goesOn
  cases goesOn

end Telehash.FinalStates
