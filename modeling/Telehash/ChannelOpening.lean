import Telehash.LineDispatch
import Telehash.ReliableArrivals
import Telehash.ReliableOutbound

/-!
A reliable channel opened from the other end of a line. Its content packets
reach the line in some order, each at least once, while the application here
sends on the channel and its timer runs out. The line decides by the packet
that comes first what the channel is to be.
-/

namespace Telehash.ChannelOpening
open Association Foundation Packet PacketBuffer CipherSet Channel ReliableChannel ReliableViews
open ReliableInbound ReliableArrivals ReliableOutbound LineDispatch Runs THReliableChannel

inductive Event where
  | handlePacket (surroundings : Surroundings) (innerPacket : THPacket)
  | sendPacket (now channelId : Nat) (packet : THPacket)
  | ackPing (channelId : Nat)

/-- A packet that makes the line raise ends the program; the side is left as it was. -/
def step (services : Services) (side : LineSide) : Event → LineSide
  | .handlePacket surroundings innerPacket =>
      match side.handlePacket services surroundings innerPacket with
      | .ok after => after
      | .error _ => side
  | .sendPacket now channelId packet => side.sendOn now channelId packet
  | .ackPing channelId => side.ackPing channelId

def reservedTypes : List String := ["seek", "link", "peer", "connect", "path"]

/-- What the other end passes to its new channel: the first packet carries the
type, and none of them ends or fails the channel. -/
structure Opening (contents : List THPacket) : Prop where
  typed : ∃ content type, contents[0]? = some content ∧
    content.objectForKey "type" = some (.string type)
  untyped : ∀ seq content, contents[seq]? = some content → seq ≠ 0 →
    content.objectForKey "type" = none
  plain : ∀ content ∈ contents, content.objectForKey "end" = none ∧
    content.objectForKey "err" = none

/-- The line has no branch of its own for the type of the channel. -/
def FreeType (contents : List THPacket) : Prop :=
  ∀ content type, contents[0]? = some content →
    content.objectForKey "type" = some (.string type) → type ∉ reservedTypes

/-- What the branch for a seek, peer, connect or path packet does on the line: channels leave
the table, unreliable ones enter it, ids are drawn and packets go out. -/
structure Branched where
  leaving : List Nat
  entering : List (Nat × UnreliableChannel.THUnreliableChannel)
  nextChannelId : Nat
  sent : List THPacket

def branchedSide (side : LineSide) (branched : Branched) : LineSide :=
  let left := branched.leaving.foldl (fun channels id => channels.erase id) side.channels
  { side with
    channels := branched.entering.foldl
      (fun channels entry => channels.insert entry.1 (.unreliable entry.2)) left
    nextChannelId := branched.nextChannelId
    sent := side.sent ++ branched.sent }

structure Branches where
  seek : LineSide → THPacket → Except Fault Branched
  peer : LineSide → THPacket → Except Fault Branched
  connect : LineSide → THPacket → Except Fault Branched
  path : LineSide → THPacket → Except Fault Branched

def Branches.services (branches : Branches) : Services where
  seek side packet := (branches.seek side packet).map (branchedSide side)
  peer side packet := (branches.peer side packet).map (branchedSide side)
  connect side packet := (branches.connect side packet).map (branchedSide side)
  path side packet := (branches.path side packet).map (branchedSide side)

/-- No reliable channel stands under the id. -/
def Unreliable (channelId : Nat) (side : LineSide) : Prop :=
  ∀ channel, side.channels.lookup channelId ≠ some (.reliable channel)

/-- One of these packets as it goes out, with whatever acknowledgement and
misses the channel puts on it then. -/
structure Numbered (channelId : Nat) (contents : List THPacket) (seq : Nat) (packet : THPacket) :
    Prop where
  content : ∃ content, contents[seq]? = some content ∧ SameContent packet content
  stamped : seqOf packet = some seq
  addressed : packet.objectForKey "c" = some (.number channelId)

/-- The application here answers with nothing but packets to send. -/
def SendsOnly (application : Application) : Prop :=
  Sender application.delegate ∧ ∀ type packet, OnlySend (application.channelReady type packet)

def Arriving (channelId : Nat) (contents : List THPacket) : Event → Prop
  | .handlePacket surroundings packet =>
      SendsOnly surroundings.application ∧ ∃ seq, Numbered channelId contents seq packet
  | .sendPacket _ id _ => id = channelId
  | .ackPing id => id = channelId

def arrivedNumber : Event → Option Nat
  | .handlePacket _ packet => seqOf packet
  | _ => none

/-- The numbers of the packets in the order they arrive. -/
def arrivedNumbers (events : List Event) : List Nat := events.filterMap arrivedNumber

/-- Nothing of the channel is here yet. -/
structure Untouched (channelId : Nat) (side : LineSide) : Prop where
  absent : side.channels.lookup channelId = none
  notMade : side.created.filter (fun entry => entry.1 = channelId) = []
  noErr : ∀ packet ∈ side.sent, channelIdOf packet = some channelId →
    packet.objectForKey "err" = none

/-- One channel was made, a reliable one, no error went out for it, and it has
processed the packets below the count, each once and in order. -/
structure Survived (channelId count : Nat) (side : LineSide) : Prop where
  oneChannel : side.created.filter (fun entry => entry.1 = channelId) =
    [(channelId, .reliableChannel)]
  noErr : ∀ packet ∈ side.sent, channelIdOf packet = some channelId →
    packet.objectForKey "err" = none
  processed : ∃ channel, side.channels.lookup channelId = some (.reliable channel) ∧
    channel.history.delivered.map seqOf = (List.range count).map some

/-! ## What the packets look like to the line -/

section Packets
variable {channelId : Nat} {contents : List THPacket} {seq : Nat} {packet : THPacket}

theorem numbered_below (numbered : Numbered channelId contents seq packet) :
    seq < contents.length := by
  obtain ⟨content, found, _⟩ := numbered.content
  exact (List.getElem?_eq_some_iff.mp found).1

theorem numbered_plain (opening : Opening contents)
    (numbered : Numbered channelId contents seq packet) :
    packet.objectForKey "end" = none ∧ packet.objectForKey "err" = none := by
  obtain ⟨content, found, same⟩ := numbered.content
  obtain ⟨noEnd, noErr⟩ := opening.plain content (List.mem_of_getElem? found)
  exact ⟨(same.1 "end" (by decide)).trans noEnd, (same.1 "err" (by decide)).trans noErr⟩

theorem numbered_goesOn (opening : Opening contents)
    (numbered : Numbered channelId contents seq packet) : isEnd packet = false := by
  simp [isEnd, (numbered_plain opening numbered).1, Json.boolValue]

theorem numbered_type {first : THPacket} {type : String} (found : contents[0]? = some first)
    (named : first.objectForKey "type" = some (.string type))
    (numbered : Numbered channelId contents 0 packet) :
    readText (packet.objectForKey "type") = .ok (some type) := by
  obtain ⟨content, sent, same⟩ := numbered.content
  rw [found] at sent
  cases sent
  rw [same.1 "type" (by decide), named]
  rfl

theorem numbered_first (opening : Opening contents) (free : FreeType contents)
    (numbered : Numbered channelId contents 0 packet) :
    ∃ type, readText (packet.objectForKey "type") = .ok (some type) ∧ type ∉ reservedTypes := by
  obtain ⟨first, type, found, named⟩ := opening.typed
  exact ⟨type, numbered_type found named numbered, free first type found named⟩

theorem numbered_later (opening : Opening contents)
    (numbered : Numbered channelId contents seq packet) (later : seq ≠ 0) :
    readText (packet.objectForKey "type") = .ok none := by
  obtain ⟨content, found, same⟩ := numbered.content
  rw [same.1 "type" (by decide), opening.untyped seq content found later, readText]

theorem numbered_id (numbered : Numbered channelId contents seq packet) :
    channelIdOf packet = some channelId := by
  simp only [channelIdOf, numbered.addressed]

/-- Two fields are more than one. -/
theorem jsonCount_two {first second : String} {one two : Json} (different : first ≠ second)
    (hasFirst : packet.objectForKey first = some one)
    (hasSecond : packet.objectForKey second = some two) : packet.jsonCount ≠ 1 := by
  cases stored : packet.json with
  | none => simp [THPacket.objectForKey, stored] at hasFirst
  | some json =>
      simp only [THPacket.objectForKey, stored, Option.bind_some] at hasFirst hasSecond
      intro single
      obtain ⟨entry, only⟩ := List.length_eq_one_iff.mp
        (by simpa [THPacket.jsonCount, stored, Dictionary.count] using single)
      have firstEntry := (lookup_some_iff _ _ _).mp hasFirst
      have secondEntry := (lookup_some_iff _ _ _).mp hasSecond
      rw [only] at firstEntry secondEntry
      have same := (List.mem_singleton.mp firstEntry).trans (List.mem_singleton.mp secondEntry).symm
      exact different (congrArg Prod.fst same)

theorem numbered_notSpurious (opening : Opening contents)
    (numbered : Numbered channelId contents seq packet) : ¬ Spurious packet := by
  obtain ⟨noEnd, noErr⟩ := numbered_plain opening numbered
  obtain ⟨value, stamped, _⟩ := Option.map_eq_some_iff.mp numbered.stamped
  rintro (ending | failing | single)
  · simp [noEnd] at ending
  · simp [noErr] at failing
  · exact jsonCount_two (by decide) stamped numbered.addressed single

end Packets

/-- A type the line has no branch for leads to the channel. -/
theorem handlePacket_channel {channelId : Nat} {type : Option String} {packet : THPacket}
    (services : Services) (side : LineSide) (surroundings : Surroundings)
    (addressed : channelIdOf packet = some channelId)
    (read : readText (packet.objectForKey "type") = .ok type)
    (free : ∀ reserved ∈ reservedTypes, type ≠ some reserved) :
    side.handlePacket services surroundings packet =
      .ok (side.channelBranch surroundings channelId type packet) := by
  have seek := free "seek" (by decide)
  have link := free "link" (by decide)
  have peer := free "peer" (by decide)
  have connect := free "connect" (by decide)
  have path := free "path" (by decide)
  simp [LineSide.handlePacket, addressed, read, seek, link, peer, connect, path]

/-! ## The other end -/

/-- The packets of a channel that is opened and sends the contents. -/
def sends (channelId : Nat) (contents : List THPacket) : List THPacket :=
  (run ReliableChannel.step (initToIdentity channelId)
    (.setState .none .opened :: contents.map .sendPacket)).history.transmitted

theorem outgoing_numbered {channelId seq : Nat} {contents : List THPacket} {content : THPacket}
    {channel : THReliableChannel} (found : contents[seq]? = some content)
    (written : content.json.isSome) (counts : isContent content = true)
    (address : channel.channelId = channelId) (current : channel.sequence = seq)
    (fits : seq < uintModulus) : Numbered channelId contents seq (channel.outgoing content) := by
  have missed : (channel.stampMiss (channel.stampSeq content)).json.isSome := by
    simpa using written
  refine ⟨⟨content, found, outgoing_content channel content⟩, ?_, ?_⟩
  · rw [seqOf_outgoing]
    simp only [stampSeq, counts, ↓reduceIte, seqOf, objectForKey_setObject_same _ _ _ written,
      Option.map_some, current]
    rw [unsignedIntegerValue_natural seq fits]
  · rw [outgoing, stampAck_objectForKey _ _ (by decide), stampId, ← address]
    exact objectForKey_setObject_same _ "c" (.number channel.channelId) missed

theorem sends_from {channelId : Nat} {contents : List THPacket} (rest done : List THPacket)
    (channel : THReliableChannel) (whole : contents = done ++ rest)
    (written : ∀ content ∈ contents, content.json.isSome ∧ isContent content = true)
    (fits : contents.length ≤ uintModulus) (opened_ : channel.state = .opened)
    (address : channel.channelId = channelId)
    (current : channel.sequence = done.length % uintModulus)
    (length : channel.history.transmitted.length = done.length)
    (sent : ∀ seq packet, channel.history.transmitted[seq]? = some packet →
      Numbered channelId contents seq packet) :
    ∀ seq packet,
      (run ReliableChannel.step channel (rest.map .sendPacket)).history.transmitted[seq]? =
        some packet → Numbered channelId contents seq packet := by
  induction rest generalizing done channel with
  | nil => exact sent
  | cons content rest ih =>
      obtain ⟨isWritten, counts⟩ := written content (by simp [whole])
      have below : done.length < uintModulus := by
        rw [whole, List.length_append, List.length_cons] at fits
        omega
      have alive : ¬ channel.state.Halted := by
        rw [opened_]
        decide
      have stamped : Numbered channelId contents done.length
          ((channel.notePassed content).outgoing content) := by
        refine outgoing_numbered (by simp [whole]) isWritten counts ?_ ?_ below
        · simpa [notePassed, counts] using address
        · simpa [notePassed, counts, Nat.mod_eq_of_lt below] using current
      apply ih (done ++ [content]) (channel.sendPacket content) (by simp [whole])
      · simpa [sendPacket, alive, sendStamped, notePassed, counts] using opened_
      · simpa [sendPacket, alive, sendStamped, notePassed, counts] using address
      · simp [sendPacket, alive, sendStamped, notePassed, counts, current]
      · simp [sendPacket, opened_, THChannelState.Halted, sendStamped, notePassed, counts, length]
      · intro seq packet found
        have appended : (channel.sendPacket content).history.transmitted =
            channel.history.transmitted ++ [(channel.notePassed content).outgoing content] := by
          simp [sendPacket, opened_, THChannelState.Halted, sendStamped, notePassed, counts]
        rw [appended] at found
        rcases Nat.lt_or_ge seq channel.history.transmitted.length with old | new
        · rw [List.getElem?_append_left old] at found
          exact sent seq packet found
        · rw [List.getElem?_append_right new] at found
          obtain ⟨last, rfl⟩ := List.getElem?_eq_some_iff.mp found
          have same : seq = done.length := by
            simp only [List.length_singleton] at last
            omega
          subst same
          simpa using stamped

/-- What the other end sends is what the packets of an opening are taken to be. -/
theorem sends_numbered {channelId seq : Nat} {contents : List THPacket} {packet : THPacket}
    (written : ∀ content ∈ contents, content.json.isSome ∧ isContent content = true)
    (fits : contents.length ≤ uintModulus)
    (found : (sends channelId contents)[seq]? = some packet) :
    Numbered channelId contents seq packet :=
  sends_from contents [] ((initToIdentity channelId).setState .none .opened) rfl written fits rfl
    rfl rfl rfl (fun _ _ none => nomatch none) seq packet found

/-! ## The channel once it is there -/

/-- What an event on the line's side is to the channel itself. -/
def channelEvents : Event → List ReliableChannel.Event
  | .handlePacket surroundings packet =>
      (if opensAgain packet then [.setState surroundings.application.delegate .opened] else []) ++
        [.handlePacket surroundings.application.delegate packet]
  | .sendPacket _ _ packet => [.sendPacket packet]
  | .ackPing _ => [.ackPing]

theorem passReliable_run (surroundings : Surroundings) (packet : THPacket)
    (channel : THReliableChannel) :
    passReliable surroundings packet channel =
      run ReliableChannel.step channel (channelEvents (.handlePacket surroundings packet)) := by
  simp only [passReliable, channelEvents]
  split <;> rfl

section Known
variable (services : Services) {channelId : Nat} {contents : List THPacket}

theorem calm_channelEvents (opening : Opening contents) {event : Event}
    (arriving : Arriving channelId contents event) :
    ∀ made ∈ channelEvents event, Calm contents.length made := by
  cases event with
  | handlePacket surroundings packet =>
      obtain ⟨sends, seq, numbered⟩ := arriving
      have arrives : Calm contents.length
          (.handlePacket surroundings.application.delegate packet) :=
        ⟨sends.1, (numbered_plain opening numbered).2, numbered_goesOn opening numbered, seq,
          numbered_below numbered, numbered.stamped⟩
      intro made member
      simp only [channelEvents] at member
      split at member
      · rcases List.mem_cons.mp member with rfl | member
        · exact ⟨sends.1, rfl⟩
        · cases List.mem_singleton.mp member
          exact arrives
      · cases List.mem_singleton.mp member
        exact arrives
  | sendPacket now id packet =>
      intro made member
      cases List.mem_singleton.mp member
      trivial
  | ackPing id =>
      intro made member
      cases List.mem_singleton.mp member
      trivial

theorem arrivals_channelEvents (events : List Event) :
    arrivals (events.flatMap channelEvents) = arrivedNumbers events := by
  induction events with
  | nil => rfl
  | cons event rest ih =>
      have one : arrivals (channelEvents event) = (arrivedNumber event).toList := by
        cases event with
        | handlePacket surroundings packet =>
            simp only [channelEvents]
            split <;> cases stamped : seqOf packet <;>
              simp [arrivals, numberOf, arrivedNumber, stamped, List.filterMap_cons]
        | sendPacket now id packet => rfl
        | ackPing id => rfl
      rw [List.flatMap_cons]
      simp only [arrivals, List.filterMap_append] at one ih ⊢
      rw [one, ih]
      cases numbered : arrivedNumber event <;> simp [arrivedNumbers, numbered]

theorem steady_run {count : Nat} {channel : THReliableChannel} (events : List ReliableChannel.Event)
    (calm : ∀ event ∈ events, Calm count event) (ordered : InOrder (inbound channel))
    (steady : Steady .opened channel) :
    InOrder (inbound (run ReliableChannel.step channel events)) ∧
      Steady .opened (run ReliableChannel.step channel events) := by
  induction events generalizing channel with
  | nil => exact ⟨ordered, steady⟩
  | cons event rest ih =>
      exact ih (fun other member => calm other (List.mem_cons_of_mem _ member))
        (inOrder_step channel event ordered)
        (steady_step (calm event List.mem_cons_self) ordered steady)

theorem store_reliable {side : LineSide} {channel : THReliableChannel}
    (registered : channel.registered = true) :
    side.store channelId (.reliable channel) =
      { side with channels := side.channels.insert channelId (.reliable channel) } := by
  simp [LineSide.store, registered]

/-- No packet of the opening takes one of the other branches. -/
theorem handlePacket_numbered {seq : Nat} {packet : THPacket} (side : LineSide)
    (surroundings : Surroundings) (opening : Opening contents) (free : FreeType contents)
    (numbered : Numbered channelId contents seq packet) :
    ∃ type, side.handlePacket services surroundings packet =
      .ok (side.channelBranch surroundings channelId type packet) := by
  by_cases first : seq = 0
  · subst first
    obtain ⟨type, read, unreserved⟩ := numbered_first opening free numbered
    exact ⟨some type, handlePacket_channel services side surroundings (numbered_id numbered) read
      fun reserved member same => unreserved (Option.some.inj same ▸ member)⟩
  · exact ⟨none, handlePacket_channel services side surroundings (numbered_id numbered)
      (numbered_later opening numbered first) (by rintro _ _ ⟨⟩)⟩

/-- An event on the side is its events on the channel, and nothing else changes. -/
theorem step_known {side : LineSide} {channel : THReliableChannel} {event : Event}
    (opening : Opening contents) (free : FreeType contents)
    (arriving : Arriving channelId contents event)
    (held : side.channels.lookup channelId = some (.reliable channel)) :
    step services side event = side.store channelId
      (.reliable (run ReliableChannel.step channel (channelEvents event))) := by
  cases event with
  | handlePacket surroundings packet =>
      obtain ⟨_, seq, numbered⟩ := arriving
      obtain ⟨type, handled⟩ :=
        handlePacket_numbered services side surroundings opening free numbered
      simp only [step, handled, LineSide.channelBranch, held, passPacket]
      rw [passReliable_run]
  | sendPacket now id packet =>
      cases arriving
      simp only [step, LineSide.sendOn, held, channelEvents, run_cons, run_nil]
      rfl
  | ackPing id =>
      cases arriving
      simp only [step, LineSide.ackPing, held, channelEvents, run_cons, run_nil]
      rfl

theorem run_known {side : LineSide} {channel : THReliableChannel} (opening : Opening contents)
    (free : FreeType contents) (events : List Event)
    (arriving : ∀ event ∈ events, Arriving channelId contents event)
    (held : side.channels.lookup channelId = some (.reliable channel))
    (ordered : InOrder (inbound channel)) (steady : Steady .opened channel) :
    (run (step services) side events).created = side.created ∧
      (run (step services) side events).sent = side.sent ∧
      (run (step services) side events).channels.lookup channelId =
        some (.reliable (run ReliableChannel.step channel (events.flatMap channelEvents))) := by
  induction events generalizing side channel with
  | nil => exact ⟨rfl, rfl, held⟩
  | cons event rest ih =>
      have first := arriving event List.mem_cons_self
      obtain ⟨orderedNext, steadyNext⟩ := steady_run (channelEvents event)
        (calm_channelEvents opening first) ordered steady
      have moved := step_known services opening free first held
      rw [store_reliable steadyNext.registered] at moved
      have there : (step services side event).channels.lookup channelId =
          some (.reliable (run ReliableChannel.step channel (channelEvents event))) := by
        rw [moved]
        exact lookup_insert_same _ _ _
      have next := ih (fun other member => arriving other (List.mem_cons_of_mem _ member)) there
        orderedNext steadyNext
      have joined : run ReliableChannel.step channel ((event :: rest).flatMap channelEvents) =
          run ReliableChannel.step (run ReliableChannel.step channel (channelEvents event))
            (rest.flatMap channelEvents) := by
        rw [List.flatMap_cons, run_append]
      rw [run_cons, joined]
      refine ⟨next.1.trans ?_, next.2.1.trans ?_, next.2.2⟩ <;> rw [moved]

/-! ## The packet that comes first -/

theorem newReliable_ready {surroundings : Surroundings} {packet : THPacket} (type : Option Json)
    (opening : Opening contents) (sends : SendsOnly surroundings.application)
    (numbered : Numbered channelId contents 0 packet) :
    Flowing (inbound (newReliable surroundings channelId type packet)) ∧
      Steady .opened (newReliable surroundings channelId type packet) ∧
      numbers (newReliable surroundings channelId type packet).history.received = [0] := by
  generalize begun : ({ initToIdentity channelId with type := type } : THReliableChannel) = channel
  have view : inbound channel = inbound (initToIdentity channelId) := by rw [← begun]; rfl
  have flowing : Flowing (inbound channel) := view ▸ flowing_start channelId
  have steady : Steady .opening channel := by
    rw [← begun]
    exact ⟨rfl, rfl, List.forall_mem_nil _⟩
  have handled := steady_handlePacket steady flowing.ordered sender_none
    (numbered_plain opening numbered).2 (numbered_goesOn opening numbered)
  have alive : Alive (channel.handlePacket .none packet) := by
    unfold Alive
    rw [handled.state]
    decide
  have fresh : Fresh channel (.handlePacket .none packet) := by
    rintro ⟨started, _⟩
    rw [view] at started
    exact started rfl
  have delivered := flowing_step channel (.handlePacket .none packet) fresh alive flowing
  have whole : inbound (newReliable surroundings channelId type packet) =
      inbound (channel.handlePacket .none packet) := by
    simp only [newReliable, begun, inbound_performAll, inbound_setState]
  refine ⟨whole ▸ delivered, ?_, ?_⟩
  · simp only [newReliable, begun]
    exact steady_performAll (steady_setState handled sender_none .opened) _ (sends.2 _ _)
  · have received : (newReliable surroundings channelId type packet).history.received =
        [packet] := by
      have same := congrArg Inbound.received whole
      have none : channel.history.received = [] := by rw [← begun]; rfl
      simp only [inbound, received_handlePacket, none] at same
      exact same
    simp [received, numbers, numbered.stamped]

/-- The first packet makes the channel if it is packet 0, and is answered with
an error if it is any other. -/
theorem step_unknown {side : LineSide} {packet : THPacket} {seq : Nat} (surroundings : Surroundings)
    (opening : Opening contents) (free : FreeType contents)
    (numbered : Numbered channelId contents seq packet)
    (absent : side.channels.lookup channelId = none) :
    (seq = 0 ∧ ∃ type, step services side (.handlePacket surroundings packet) =
        (side.noteCreated channelId .reliableChannel).store channelId
          (.reliable (newReliable surroundings channelId type packet))) ∨
      (seq ≠ 0 ∧ step services side (.handlePacket surroundings packet) =
        { side with sent := side.sent ++ [errPacket channelId] }) := by
  by_cases first : seq = 0
  · subst first
    obtain ⟨type, read, unreserved⟩ := numbered_first opening free numbered
    refine Or.inl ⟨rfl, some (.string type), ?_⟩
    have handled := handlePacket_channel services side surroundings (numbered_id numbered) read
      fun reserved member same => unreserved (Option.some.inj same ▸ member)
    simp [step, handled, LineSide.channelBranch, absent, LineSide.unknownChannel, numbered.stamped]
  · refine Or.inr ⟨first, ?_⟩
    have handled := handlePacket_channel services side surroundings
      (numbered_id numbered) (numbered_later opening numbered first) (by rintro _ _ ⟨⟩)
    simp [step, handled, LineSide.channelBranch, absent, LineSide.unknownChannel,
      numbered_notSpurious opening numbered]

/-- What the line has sent it has sent. -/
theorem mem_sent_store {side : LineSide} {packet : THPacket} (channel : THChannel)
    (member : packet ∈ side.sent) : packet ∈ (side.store channelId channel).sent := by
  cases channel with
  | reliable held => exact member
  | unreliable held => exact List.mem_append_left _ member

theorem mem_sent_step {side : LineSide} {event : Event} {packet : THPacket}
    (opening : Opening contents) (free : FreeType contents)
    (arriving : Arriving channelId contents event)
    (member : packet ∈ side.sent) : packet ∈ (step services side event).sent := by
  cases event with
  | handlePacket surroundings arrived =>
      obtain ⟨_, seq, numbered⟩ := arriving
      obtain ⟨type, handled⟩ :=
        handlePacket_numbered services side surroundings opening free numbered
      simp only [step, handled, LineSide.channelBranch, LineSide.unknownChannel]
      split
      · exact mem_sent_store _ member
      · split
        · split
          · exact member
          · exact List.mem_append_left _ member
        · split <;> exact mem_sent_store _ member
  | sendPacket now id sent =>
      simp only [step, LineSide.sendOn]
      split
      · exact member
      · exact mem_sent_store _ member
      · exact mem_sent_store _ member
  | ackPing id =>
      simp only [step, LineSide.ackPing]
      split
      · exact mem_sent_store _ member
      · exact member

theorem mem_sent_run {side : LineSide} {packet : THPacket} (opening : Opening contents)
    (free : FreeType contents) (events : List Event)
    (arriving : ∀ event ∈ events, Arriving channelId contents event)
    (member : packet ∈ side.sent) : packet ∈ (run (step services) side events).sent := by
  induction events generalizing side with
  | nil => exact member
  | cons event rest ih =>
      exact ih (fun other inside => arriving other (List.mem_cons_of_mem _ inside))
        (mem_sent_step services opening free (arriving event List.mem_cons_self) member)

theorem errPacket_counts (count : Nat) {side : LineSide}
    (member : errPacket channelId ∈ side.sent) : ¬ Survived channelId count side := by
  intro survived
  have absent := survived.noErr _ member rfl
  simp [errPacket, THPacket.new, initWithJson, THPacket.setObject, THPacket.objectForKey,
    lookup_insert] at absent

/-- With packet 0 first, everything rests on the channel it makes. -/
theorem survived_first {side : LineSide} {surroundings : Surroundings} {type : Option Json}
    {packet : THPacket} (opening : Opening contents) (free : FreeType contents)
    (sends : SendsOnly surroundings.application)
    (numbered : Numbered channelId contents 0 packet) (untouched : Untouched channelId side)
    (events : List Event) (arriving : ∀ event ∈ events, Arriving channelId contents event)
    (complete : ∀ seq < contents.length, seq ∈ 0 :: arrivedNumbers events) :
    Survived channelId contents.length (run (step services)
        ((side.noteCreated channelId .reliableChannel).store channelId
          (.reliable (newReliable surroundings channelId type packet))) events) ↔
      NeverStale contents.length [0] (arrivedNumbers events) := by
  obtain ⟨flowing, steady, received⟩ :=
    newReliable_ready type opening sends numbered
  generalize newReliable surroundings channelId type packet = channel at flowing steady received ⊢
  generalize made : (side.noteCreated channelId .reliableChannel).store channelId
    (.reliable channel) = begun
  rw [store_reliable steady.registered] at made
  have there : begun.channels.lookup channelId = some (.reliable channel) := by
    rw [← made]
    exact lookup_insert_same _ _ _
  obtain ⟨created, sent, held⟩ :=
    run_known services opening free events arriving there flowing.ordered steady
  have calm : ∀ event ∈ events.flatMap channelEvents, Calm contents.length event := by
    intro made member
    obtain ⟨event, inside, madeBy⟩ := List.mem_flatMap.mp member
    exact calm_channelEvents opening (arriving event inside) made madeBy
  have below : ∀ seq ∈ numbers channel.history.received, seq < contents.length := by
    intro seq member
    rw [received] at member
    cases List.mem_singleton.mp member
    exact numbered_below numbered
  have whole := delivered_all_iff flowing steady below (events.flatMap channelEvents) calm
    (by rw [received, arrivals_channelEvents]; exact complete)
  rw [received, arrivals_channelEvents] at whole
  have ordered := (steady_run _ calm flowing.ordered steady).1
  have inOrder : (run ReliableChannel.step channel
      (events.flatMap channelEvents)).history.delivered.map seqOf = _ := delivered_numbers ordered
  rw [← whole]
  constructor
  · intro survived
    obtain ⟨final, there, processed⟩ := survived.processed
    rw [held] at there
    cases there
    simpa using congrArg List.length processed
  · intro full
    refine ⟨?_, ?_, _, held, inOrder.trans ?_⟩
    · rw [created, ← made]
      simp [LineSide.noteCreated, untouched.notMade]
    · rw [sent, ← made]
      exact untouched.noErr
    · rw [show (inbound _).delivered.length = contents.length from full]

/-! ## A type the line has a branch for -/

theorem unreliable_store {side : LineSide} (none_ : Unreliable channelId side) (id : Nat)
    (channel : UnreliableChannel.THUnreliableChannel) :
    Unreliable channelId (side.store id (.unreliable channel)) := by
  intro reliable found
  simp only [LineSide.store] at found
  by_cases same : channelId = id
  · subst same
    split at found
    · rw [lookup_insert_same] at found
      cases found
    · rw [lookup_erase_same] at found
      cases found
  · split at found
    · rw [lookup_insert_other _ _ _ _ same] at found
      exact none_ reliable found
    · rw [lookup_erase_other _ _ _ same] at found
      exact none_ reliable found

/-- The branches for seek, peer, connect and path packets make no reliable channels. -/
theorem unreliable_branchedSide {side : LineSide} (none_ : Unreliable channelId side)
    (branched : Branched) : Unreliable channelId (branchedSide side branched) := by
  have left : ∀ (leaving : List Nat) (channels : Dictionary Nat THChannel),
      (∀ channel, channels.lookup channelId ≠ some (.reliable channel)) →
      ∀ channel, (leaving.foldl (fun channels id => channels.erase id) channels).lookup channelId ≠
        some (.reliable channel) := by
    intro leaving
    induction leaving with
    | nil => exact fun _ held => held
    | cons id rest ih =>
        refine fun channels held => ih _ fun channel found => ?_
        rw [lookup_erase] at found
        split at found
        · cases found
        · exact held channel found
  have entered : ∀ (entering : List (Nat × UnreliableChannel.THUnreliableChannel))
      (channels : Dictionary Nat THChannel),
      (∀ channel, channels.lookup channelId ≠ some (.reliable channel)) →
      ∀ channel, (entering.foldl (fun channels entry =>
        channels.insert entry.1 (.unreliable entry.2)) channels).lookup channelId ≠
          some (.reliable channel) := by
    intro entering
    induction entering with
    | nil => exact fun _ held => held
    | cons entry rest ih =>
        refine fun channels held => ih _ fun channel found => ?_
        rw [lookup_insert] at found
        split at found
        · cases found
        · exact held channel found
  exact entered _ _ (left _ _ none_)

theorem unreliable_branch {branch : LineSide → THPacket → Except Fault Branched}
    {side after : LineSide} {packet : THPacket} (none_ : Unreliable channelId side)
    (handled : (branch side packet).map (branchedSide side) = .ok after) :
    Unreliable channelId after := by
  cases branched : branch side packet with
  | error fault =>
      rw [branched] at handled
      cases handled
  | ok result =>
      rw [branched] at handled
      cases handled
      exact unreliable_branchedSide none_ result

theorem unreliable_linkBranch {side : LineSide} (none_ : Unreliable channelId side)
    (surroundings : Surroundings) (id : Nat) :
    Unreliable channelId (side.linkBranch surroundings id) := by
  have removed : Unreliable channelId side.removeLink := by
    unfold LineSide.removeLink
    split
    · exact none_
    · rename_i current _
      intro reliable found
      by_cases same : channelId = current.1
      · rw [same, lookup_erase_same] at found
        cases found
      · rw [lookup_erase_other _ _ _ same] at found
        exact none_ reliable found
  have taken : Unreliable channelId (side.removeLink.takeId id) := by
    unfold LineSide.takeId
    split
    · exact removed
    · exact removed
  exact unreliable_store taken _ _

/-- What is no reliable channel does not become one by a packet, nor does the
line make one for a type it has a branch for. -/
theorem unreliable_channelBranch {side : LineSide} (none_ : Unreliable channelId side)
    (surroundings : Surroundings) {type : Option String} (packet : THPacket)
    (unmade : type = none ∨ (side.channels.lookup channelId).isSome) :
    Unreliable channelId (side.channelBranch surroundings channelId type packet) := by
  unfold LineSide.channelBranch
  cases held : side.channels.lookup channelId with
  | none =>
      rcases unmade with rfl | known
      · unfold LineSide.unknownChannel
        dsimp only
        split
        · exact none_
        · exact none_
      · rw [held] at known
        cases known
  | some channel =>
      cases channel with
      | reliable channel => exact absurd held (none_ channel)
      | unreliable channel => exact unreliable_store none_ _ _

theorem unreliable_step (branches : Branches) {side : LineSide} {event : Event}
    (opening : Opening contents) (reserved : ¬ FreeType contents)
    (arriving : Arriving channelId contents event) (none_ : Unreliable channelId side) :
    Unreliable channelId (step branches.services side event) := by
  cases event with
  | handlePacket surroundings packet =>
      obtain ⟨_, seq, numbered⟩ := arriving
      simp only [step, LineSide.handlePacket, numbered_id numbered]
      by_cases first : seq = 0
      · subst first
        simp only [FreeType, not_forall, not_not] at reserved
        obtain ⟨content, type, found, named, listed⟩ := reserved
        rw [numbered_type found named numbered, ok_bind]
        simp only [Option.some.injEq]
        split
        · rename_i after handled
          split at handled
          · exact unreliable_branch none_ handled
          split at handled
          · cases handled
            exact unreliable_linkBranch none_ surroundings channelId
          split at handled
          · exact unreliable_branch none_ handled
          split at handled
          · exact unreliable_branch none_ handled
          split at handled
          · exact unreliable_branch none_ handled
          · rename_i seek link peer connect path
            cases handled
            refine unreliable_channelBranch none_ surroundings packet (Or.inr ?_)
            simp only [reservedTypes, List.mem_cons, seek, peer, connect, List.not_mem_nil,
              false_or, or_false] at listed
            rcases listed with rfl | rfl
            · by_contra unknown
              exact link ⟨rfl, unknown⟩
            · by_contra unknown
              exact path ⟨rfl, unknown⟩
        · exact none_
      · rw [numbered_later opening numbered first, ok_bind]
        simp only [reduceCtorEq, false_and, ↓reduceIte, pure_eq_ok]
        exact unreliable_channelBranch none_ surroundings packet (Or.inl rfl)
  | sendPacket now id packet =>
      cases arriving
      simp only [step, LineSide.sendOn]
      split
      · exact none_
      · rename_i channel held
        exact absurd held (none_ channel)
      · exact unreliable_store none_ _ _
  | ackPing id =>
      cases arriving
      simp only [step, LineSide.ackPing]
      split
      · rename_i channel held
        exact absurd held (none_ channel)
      · exact none_

theorem unreliable_run (branches : Branches) {side : LineSide}
    (opening : Opening contents) (reserved : ¬ FreeType contents) (events : List Event)
    (arriving : ∀ event ∈ events, Arriving channelId contents event)
    (none_ : Unreliable channelId side) :
    Unreliable channelId (run (step branches.services) side events) := by
  induction events generalizing side with
  | nil => exact none_
  | cons event rest ih =>
      exact ih (fun other inside => arriving other (List.mem_cons_of_mem _ inside))
        (unreliable_step branches opening reserved (arriving event List.mem_cons_self)
          none_)

/-- Of a type the line has no branch for, the channel survives exactly when
packet 0 arrives first and no packet comes again just as the run has reached it. -/
theorem free_survives_iff {side : LineSide} (opening : Opening contents)
    (free : FreeType contents) (untouched : Untouched channelId side)
    (events : List Event) (arriving : ∀ event ∈ events, Arriving channelId contents event)
    (complete : ∀ seq < contents.length, seq ∈ arrivedNumbers events) :
    Survived channelId contents.length (run (step services) side events) ↔
      (arrivedNumbers events).head? = some 0 ∧
        NeverStale contents.length [] (arrivedNumbers events) := by
  have some_ : 0 < contents.length := by
    obtain ⟨_, _, found, _⟩ := opening.typed
    exact (List.getElem?_eq_some_iff.mp found).1
  induction events with
  | nil => cases complete 0 some_
  | cons event rest ih =>
      have first := arriving event List.mem_cons_self
      have later := fun other inside => arriving other (List.mem_cons_of_mem _ inside)
      cases event with
      | handlePacket surroundings packet =>
          obtain ⟨sends, seq, numbered⟩ := first
          have arrived : arrivedNumbers (.handlePacket surroundings packet :: rest) =
              seq :: arrivedNumbers rest := by
            simp [arrivedNumbers, arrivedNumber, numbered.stamped]
          rw [arrived] at complete ⊢
          rw [run_cons]
          rcases step_unknown services surroundings opening free numbered
            untouched.absent with ⟨rfl, type, made⟩ | ⟨wrong, answered⟩
          · rw [made, survived_first services opening free sends numbered untouched rest later
              complete]
            have none : leading [] contents.length = 0 :=
              leading_eq (Nat.zero_le _) (fun seq below => absurd below (Nat.not_lt_zero seq))
                fun _ => List.not_mem_nil
            simp [NeverStale, none]
          · rw [answered]
            refine iff_of_false ?_ fun inTurn => wrong (Option.some.inj inTurn.1)
            exact errPacket_counts _
              (mem_sent_run services opening free rest later
                (List.mem_append_right _ List.mem_cons_self))
      | sendPacket now id packet =>
          cases first
          have same : step services side (.sendPacket now channelId packet) = side := by
            simp [step, LineSide.sendOn, untouched.absent]
          rw [run_cons, same]
          exact ih later complete
      | ackPing id =>
          cases first
          have same : step services side (.ackPing channelId) = side := by
            simp [step, LineSide.ackPing, untouched.absent]
          rw [run_cons, same]
          exact ih later complete

end Known

/-- The channel survives its opening exactly when the line has no branch of its
own for its type, packet 0 arrives first and, while some packet is still to come,
none arrives again just after the run from packet 0 on has reached it. -/
theorem opening_survives_iff (branches : Branches) {channelId : Nat} {contents : List THPacket}
    {side : LineSide} (opening : Opening contents) (untouched : Untouched channelId side)
    (events : List Event) (arriving : ∀ event ∈ events, Arriving channelId contents event)
    (complete : ∀ seq < contents.length, seq ∈ arrivedNumbers events) :
    Survived channelId contents.length (run (step branches.services) side events) ↔
      FreeType contents ∧ (arrivedNumbers events).head? = some 0 ∧
        NeverStale contents.length [] (arrivedNumbers events) := by
  by_cases free : FreeType contents
  · rw [free_survives_iff branches.services opening free untouched events arriving complete]
    exact (and_iff_right free).symm
  · refine iff_of_false ?_ fun survives => free survives.1
    intro survived
    obtain ⟨channel, held, _⟩ := survived.processed
    refine unreliable_run branches opening free events arriving ?_ channel held
    intro channel found
    rw [untouched.absent] at found
    cases found

/-! ## Two packets on channel 2 -/

def silent : Application := ⟨.none, fun _ _ => []⟩

def surroundings : Surroundings := ⟨20, [], silent⟩

/-- No branch does anything. -/
def idle : Branches :=
  let nothing := fun (side : LineSide) (_ : THPacket) => .ok ⟨[], [], side.nextChannelId, []⟩
  ⟨nothing, nothing, nothing, nothing⟩

def services : Services := idle.services

def fresh : LineSide := ⟨.empty, 1, [], []⟩

def chat : List THPacket :=
  [THPacket.new.setObject (.string "chat") "type", { THPacket.new with body := some [104, 105] }]

/-- The packets of the chat as they arrive in the order given. -/
def chatArrivals (order : List Nat) : List Event :=
  (order.filterMap fun seq => (sends 2 chat)[seq]?).map (.handlePacket surroundings)

theorem chat_free : FreeType chat := by
  rintro _ _ ⟨⟩ ⟨⟩
  decide

theorem chat_opening : Opening chat where
  typed := ⟨_, "chat", rfl, rfl⟩
  untyped seq content found later := by
    match seq with
    | 0 => exact absurd rfl later
    | 1 => cases found; rfl
    | seq + 2 => cases found
  plain content member := by
    rcases List.mem_cons.mp member with rfl | member
    · exact ⟨rfl, rfl⟩
    · cases List.mem_singleton.mp member
      exact ⟨rfl, rfl⟩

theorem chat_arriving (order : List Nat) :
    ∀ event ∈ chatArrivals order, Arriving 2 chat event := by
  intro event member
  obtain ⟨packet, sent, rfl⟩ := List.mem_map.mp member
  obtain ⟨seq, _, found⟩ := List.mem_filterMap.mp sent
  refine ⟨⟨sender_none, fun _ _ _ inside => nomatch inside⟩, seq,
    sends_numbered ?_ (by decide) found⟩
  intro content inside
  rcases List.mem_cons.mp inside with rfl | inside
  · exact ⟨rfl, rfl⟩
  · cases List.mem_singleton.mp inside
    exact ⟨rfl, rfl⟩

theorem untouched_fresh : Untouched 2 fresh := ⟨rfl, rfl, List.forall_mem_nil _⟩

/-- In order, with a repeat of packet 0 after all have arrived. -/
theorem opening_survives_in_order :
    Survived 2 chat.length (run (step services) fresh (chatArrivals [0, 1, 0])) := by
  refine (opening_survives_iff idle chat_opening untouched_fresh
    (chatArrivals [0, 1, 0]) (chat_arriving [0, 1, 0]) (by decide)).mpr
    ⟨chat_free, by decide, by decide⟩

/-- Packet 1 comes first: the other end is sent an error for its new channel. -/
theorem reordered_opening_fails :
    (∀ event ∈ chatArrivals [1, 0], Arriving 2 chat event) ∧
      (∀ seq < chat.length, seq ∈ arrivedNumbers (chatArrivals [1, 0])) ∧
      ¬ Survived 2 chat.length (run (step services) fresh (chatArrivals [1, 0])) := by
  refine ⟨chat_arriving [1, 0], by decide, fun survived => ?_⟩
  have answered : (run (step services) fresh (chatArrivals [1, 0])).sent = [errPacket 2] := rfl
  exact errPacket_counts 2 (by rw [answered]; exact List.mem_singleton_self _) survived

end Telehash.ChannelOpening
