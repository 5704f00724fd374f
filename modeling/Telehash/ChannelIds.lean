import Telehash.OpenReplay
import Telehash.LineKeys

/-!
The ids of channels: `nextChannelId` and `openLine` of THLine.m and the calls of
THSwitch.m, THCipherSet2a.m and THCipherSet3a.m that number channels on a line
or start its numbering. There are two switches, each with its identity for the
other. Packets may arrive late, repeated or never; of a packet only the id of
its channel matters here, and of a line everything but its keys.
-/

namespace Telehash.ChannelIds
open Association Foundation Identity CipherSet Runs TwoSided

/-- A channel as it is opened. One that answers a packet has that packet's id. -/
structure THChannel where
  ref : ChannelRef
  channelId : Option Nat

/-- Without an id, or with 0, the line gives it one. -/
def THChannel.givenId (channel : THChannel) : Option Nat := channel.channelId.filter (· ≠ 0)

/-- A switch and its identity for the other end. -/
structure End where
  -- of the switch, and of the identity
  hashname : String
  toHashname : String
  currentLine : Option THLine
  channels : Dictionary Nat ChannelRef
  -- the channels among the pending jobs
  pendingJobs : List THChannel
  -- the ids of packets that may still reach the other end
  travelling : List Nat
  -- all that `nextChannelId` returned
  allocated : List Nat

namespace End

def startChannelId (here : End) : Nat := if here.toHashname < here.hashname then 1 else 2

def registered (here : End) (id : Nat) : Bool := (here.channels.lookup id).isSome

end End

def nextChannelId (line : THLine) : Nat := (line.nextChannelId + 2) % uintModulus

/-- What a call of `nextChannelId` leaves behind. -/
def allocate (here : End) (line : THLine) : End :=
  { here with
    currentLine := some { line with nextChannelId := nextChannelId line }
    allocated := here.allocated ++ [nextChannelId line] }

/-- `channel:line:firstPacket:` -/
def channelLine (here : End) (line : THLine) (channel : THChannel) : End :=
  match channel.givenId with
  | some id => { here with channels := here.channels.insert id channel.ref }
  | none =>
      let numbered := allocate here line
      { numbered with channels := here.channels.insert (nextChannelId line) channel.ref }

/-- `openLine:completion:` makes a line once the identity can be reached, and the
open it sends draws an id for the line unless there is no cipher set to share. -/
def switchOpenLine (here : End) (reachable : Bool) (inLineId : Option String) : End :=
  if reachable then
    let line := here.currentLine.getD (.new 0)
    { here with currentLine := some { line with inLineId := line.inLineId.or inLineId } }
  else here

def openChannel (here : End) (reachable : Bool) (inLineId : Option String) (channel : THChannel) :
    End :=
  match here.currentLine with
  | none =>
      switchOpenLine { here with pendingJobs := here.pendingJobs ++ [channel] } reachable inLineId
  | some line => channelLine here line channel

/-- `openLine` of THLine. -/
def openLine (here : End) (line : THLine) : End :=
  { here with
    currentLine := some { line with nextChannelId := here.startChannelId, isOpen := true } }

-- An open that cannot be compared with the last one raises, and leaves the end too.
def turnsAway (here : End) (outLineId : Option Json) (time : Nat) : Bool :=
  olderThanCurrent here.currentLine time ||
    (reopensCurrent here.currentLine outLineId time).toOption.getD true

/-- The channels are closed for an open that replaces one before it. -/
def makeRoom (here : End) (time : Nat) : End :=
  if replacesCurrent here.currentLine time then { here with channels := .empty } else here

/-- `processOpen:` of the cipher set and of the switch, up to the channels that
wait for the line. Each of these runs code of the application, so releasing one
is an event of its own. -/
def processOpen (here : End) (outLineId : Option Json) (time : Nat) (inLineId : Option String) :
    End :=
  if turnsAway here outLineId time then here
  else
    let line := handleOpen outLineId time (here.currentLine.getD (.new 0))
    openLine (makeRoom here time) { line with inLineId := line.inLineId.or inLineId }

def releaseChannel (here : End) (index : Nat) : End :=
  match here.pendingJobs[index]?, here.currentLine with
  | some channel, some line =>
      channelLine { here with pendingJobs := here.pendingJobs.eraseIdx index } line channel
  | _, _ => here

/-- An inbound channel the line makes itself. -/
def handlePacket (here : End) (id : Nat) (ref : ChannelRef) : End :=
  if here.registered id then here else { here with channels := here.channels.insert id ref }

/-- The two-second timer of `openLine:completion:`; the channels it drops from
the pending jobs are dropped one by one. -/
def lineTimeout (here : End) : End :=
  if (here.currentLine.bind THLine.inLineId).isSome then here
  else { here with currentLine := none }

inductive Event where
  | openLine (reachable : Bool) (inLineId : Option String)
  | openChannel (reachable : Bool) (inLineId : Option String) (channel : THChannel)
  | processOpen (outLineId : Option Json) (time : Nat) (inLineId : Option String)
  | releaseChannel (index : Nat)
  | dropChannel (index : Nat)
  -- THRelay draws a second id for the channel it has just opened
  | nextChannelId
  | handlePacket (id : Nat) (ref : ChannelRef)
  | sendPacket (id : Nat)
  | losePackets (id : Nat)
  | removeChannel (id : Nat)
  | closeChannels
  | closeLine
  | lineTimeout

def step (here : End) : Event → End
  | .openLine reachable inLineId => switchOpenLine here reachable inLineId
  | .openChannel reachable inLineId channel => openChannel here reachable inLineId channel
  | .processOpen outLineId time inLineId => processOpen here outLineId time inLineId
  | .releaseChannel index => releaseChannel here index
  | .dropChannel index => { here with pendingJobs := here.pendingJobs.eraseIdx index }
  | .nextChannelId =>
      match here.currentLine with
      | none => here
      | some line => allocate here line
  | .handlePacket id ref => handlePacket here id ref
  | .sendPacket id => { here with travelling := here.travelling ++ [id] }
  | .losePackets id => { here with travelling := here.travelling.filter (· ≠ id) }
  | .removeChannel id => { here with channels := here.channels.erase id }
  | .closeChannels => { here with channels := .empty }
  | .closeLine => { here with currentLine := none }
  | .lineTimeout => lineTimeout here

/-! ## What an event asks of a line -/

/-- The channel that gets to `channel:line:firstPacket:` in this step, and its line. -/
def reaches (here : End) : Event → Option (THChannel × THLine)
  | .openChannel _ _ channel => here.currentLine.map (channel, ·)
  | .releaseChannel index =>
      here.pendingJobs[index]?.bind fun channel => here.currentLine.map (channel, ·)
  | _ => none

/-- The line that is asked for its next id. -/
def numbers (here : End) : Event → Option THLine
  | .nextChannelId => here.currentLine
  | event =>
      (reaches here event).bind fun (channel, line) =>
        if channel.givenId.isNone then some line else none

def drawn (here : End) (event : Event) : Option Nat := (numbers here event).map nextChannelId

/-- The channel that is registered now under an id it already had. -/
def given (here : End) (event : Event) : Option THChannel :=
  (reaches here event).bind fun (channel, _) =>
    if channel.givenId.isSome then some channel else none

/-- What may happen at an end: it registers under ids of packets sent to it,
opens channels of its own again, and sends on registered channels. -/
def Possible (here there : End) : Event → Prop
  | .openChannel _ _ channel => ∀ id, channel.givenId = some id →
      id ∈ there.travelling ∨ here.registered id = true ∨ id ∈ here.allocated
  | .handlePacket id _ => id ∈ there.travelling
  | .sendPacket id => here.registered id = true
  | _ => True

/-- No id is taken twice in this step: a new one is registered at neither end
and was never given out by the other, and no other channel is replaced. -/
structure Fresh (here there : End) (event : Event) : Prop where
  unused : ∀ id, drawn here event = some id →
    here.registered id = false ∧ there.registered id = false ∧ id ∉ there.allocated
  unreplaced : ∀ channel id ref, given here event = some channel → channel.givenId = some id →
    here.channels.lookup id = some ref → ref = channel.ref

/-- The relation holds between the acting end and the other. -/
def At (relation : End → End → Event → Prop) (pair : Side → End) (action : Action Event) : Prop :=
  relation (pair action.side) (pair action.side.other) action.event

def Disjoint (pair : Side → End) : Prop :=
  ∀ id ∈ (pair .near).allocated, id ∉ (pair .far).allocated

/-- Two switches that know each other and have not met. -/
structure Strangers (pair : Side → End) : Prop where
  distinct : (pair .near).hashname ≠ (pair .far).hashname
  named : ∀ side, (pair side).toHashname = (pair side.other).hashname
  unlined : ∀ side, (pair side).currentLine = none
  noChannels : ∀ side, (pair side).channels = .empty
  nonePending : ∀ side, (pair side).pendingJobs = []
  noneSent : ∀ side, (pair side).travelling = []
  noneAllocated : ∀ side, (pair side).allocated = []

/-! ## The same on the lines of a switch -/

/-- A line but for its keys and its identity. -/
def unkeyed (line : THLine) : THLine := { line with toIdentity := 0, cipherSetInfo := none }

/-- The end has the channels and the current line of an identity in the store. -/
structure Shows (store : Store) (peer : IdentityRef) (here : End) : Prop where
  channels : here.channels = (store.identities peer).channels
  currentLine : here.currentLine = (currentLineOf store peer).map unkeyed

section Switch
variable (prim : Primitives) {store after : Store} {peer : IdentityRef} {here : End}
  {line : LineRef}

theorem checks_unkeyed (current : Option THLine) (lineId : Option Json) (time : Nat) :
    olderThanCurrent (current.map unkeyed) time = olderThanCurrent current time ∧
      reopensCurrent (current.map unkeyed) lineId time = reopensCurrent current lineId time ∧
      replacesCurrent (current.map unkeyed) time = replacesCurrent current time := by
  cases current <;> exact ⟨rfl, rfl, rfl⟩

/-- An identity whose current line is changed or made shows the changed line. -/
theorem shows_updateLine (shows_ : Shows store peer here)
    (current : (store.identities peer).currentLine = some line) (change : THLine → THLine) :
    Shows (store.updateLine line change) peer
      { here with currentLine := some (unkeyed (change (store.lines line))) } := by
  constructor
  · exact shows_.channels
  · simp [currentLineOf, Store.updateLine, current]

theorem shows_takeLine {opened : CipherSet.Opened} {lineKeys : KeyPair} {lineId : Option Json}
    {time : Nat} (shows_ : Shows store peer here)
    (taken : takeLine opened lineKeys peer lineId time store = .ok (after, some line)) :
    (after.identities peer).currentLine = some line ∧
      Shows after peer
        { here with
          currentLine := some (handleOpen lineId time (here.currentLine.getD (.new 0))) } := by
  have shown := shows_.currentLine
  unfold takeLine at taken
  cases current : (store.identities peer).currentLine with
  | some held =>
      simp only [current] at taken
      obtain ⟨info, _, same⟩ := (bind_ok_iff _ _ _).mp taken
      cases same
      simp only [currentLineOf, current, Option.map_some] at shown
      rw [shown]
      exact ⟨current, shows_updateLine shows_ current _⟩
  | none =>
      simp only [current] at taken
      cases taken
      simp only [currentLineOf, current, Option.map_none] at shown
      rw [shown]
      constructor
      · rw [identities_updateIdentity_same]
      · constructor
        · rw [identities_updateIdentity_same]
          exact shows_.channels
        · simp [currentLineOf, Store.allocLine]
          rfl

/-- An open the cipher set accepts for the identity. -/
theorem shows_takeOpen {opened : CipherSet.Opened} {lineKeys : KeyPair}
    (shows_ : Shows store peer here)
    (taken : takeOpen opened lineKeys peer store = .ok (after, some line)) :
    (after.identities peer).currentLine = some line ∧ ∃ time lineId,
      turnsAway here lineId time = false ∧
      Shows after peer
        { makeRoom here time with
          currentLine := some (handleOpen lineId time (here.currentLine.getD (.new 0))) } := by
  obtain ⟨time, lineId, _, _, _, young, new, gives⟩ :=
    (takeOpen_accepted_iff opened lineKeys peer store after line).mp taken
  obtain ⟨older, reopens, replaces⟩ := checks_unkeyed (currentLineOf store peer) lineId time
  rw [← shows_.currentLine] at older reopens replaces
  have accepted : turnsAway here lineId time = false := by
    simp only [turnsAway, older, young, reopens, new, Except.toOption, Option.getD_some,
      Bool.or_self]
  by_cases replaced : replacesCurrent (currentLineOf store peer) time = true
  · rw [if_pos replaced] at gives
    have emptied : Shows (closeChannels peer store) peer { here with channels := .empty } := by
      constructor
      · simp [closeChannels, Store.updateIdentity]
      · rw [currentLineOf_closeChannels]
        exact shows_.currentLine
    obtain ⟨current, shown⟩ := shows_takeLine emptied gives
    refine ⟨current, time, lineId, accepted, ?_⟩
    simpa only [makeRoom, replaces, replaced, ↓reduceIte] using shown
  · rw [if_neg replaced] at gives
    obtain ⟨current, shown⟩ := shows_takeLine shows_ gives
    refine ⟨current, time, lineId, accepted, ?_⟩
    simpa only [makeRoom, replaces, replaced, Bool.false_eq_true, ↓reduceIte] using shown

theorem finalize2a_unkeyed {lineKeys : KeyPair} {held finalized : THLine}
    {info : THCipherSetLineInfo2a}
    (keyed : Switch.finalize2a prim lineKeys held info = .ok finalized) :
    unkeyed finalized = unkeyed held := by
  unfold Switch.finalize2a at keyed
  cases told : info.remoteECCKey with
  | none =>
      simp only [told] at keyed
      cases keyed
      rfl
  | some remoteECCKey =>
      simp only [told] at keyed
      obtain ⟨_, _, keyed⟩ := (bind_ok_iff _ _ _).mp keyed
      obtain ⟨_, _, keyed⟩ := (bind_ok_iff _ _ _).mp keyed
      cases keyed
      rfl

theorem finalize3a_unkeyed {held finalized : THLine} {info : THCipherSetLineInfo3a}
    (keyed : Switch.finalize3a prim held info = .ok finalized) :
    unkeyed finalized = unkeyed held := by
  unfold Switch.finalize3a at keyed
  cases told : info.remoteLineKey with
  | none =>
      simp only [told] at keyed
      cases keyed
  | some remoteLineKey =>
      simp only [told] at keyed
      obtain ⟨_, _, keyed⟩ := (bind_ok_iff _ _ _).mp keyed
      obtain ⟨_, _, keyed⟩ := (bind_ok_iff _ _ _).mp keyed
      cases keyed
      rfl

/-- Making the keys of a line changes nothing else of it. -/
theorem finalizeLineKeys_unkeyed {lineKeys : KeyPair} {held finalized : THLine}
    (keyed : Switch.finalizeLineKeys prim lineKeys held = .ok finalized) :
    unkeyed finalized = unkeyed held := by
  unfold Switch.finalizeLineKeys at keyed
  split at keyed
  · cases keyed
    rfl
  · split at keyed
    · cases keyed
      rfl
    · split at keyed
      · exact finalize2a_unkeyed prim keyed
      · cases keyed
  · split at keyed
    · cases keyed
      rfl
    · split at keyed
      · exact finalize3a_unkeyed prim keyed
      · cases keyed

theorem shows_openAndRegister {switch opened : Switch.THSwitch} {lineKeys : KeyPair}
    (shows_ : Shows switch.store peer here) (own : here.hashname = switch.hashname)
    (named : here.toHashname = (switch.store.identities peer).hashname prim.sha256)
    (current : (switch.store.identities peer).currentLine = some line)
    (owner : (switch.store.lines line).toIdentity = peer)
    (opening : Switch.openAndRegister prim switch lineKeys line = .ok opened) :
    Shows opened.store peer (openLine here (unkeyed (switch.store.lines line))) := by
  unfold Switch.openAndRegister at opening
  obtain ⟨finalized, keyed, opening⟩ := (bind_ok_iff _ _ _).mp opening
  cases inLineId : (switch.store.lines line).inLineId with
  | none =>
      simp only [inLineId] at opening
      cases opening
  | some lineId =>
      simp only [inLineId] at opening
      cases opening
      have shown := shows_updateLine shows_ current fun _ => { finalized with isOpen := true }
      have same := congrArg (fun held => { held with isOpen := true })
        (finalizeLineKeys_unkeyed prim keyed)
      rw [owner, ← named, ← own] at same
      have whole : unkeyed { finalized with isOpen := true } =
          { unkeyed (switch.store.lines line) with
            nextChannelId := here.startChannelId, isOpen := true } := same
      rw [whole] at shown
      exact shown

/-- The line `openLine:completion:` makes, and the id its open draws for it. -/
theorem shows_withCurrentLine {switch : Switch.THSwitch} (shows_ : Shows switch.store peer here) :
    ((Switch.withCurrentLine switch peer).1.store.identities peer).currentLine =
        some (Switch.withCurrentLine switch peer).2 ∧
      Shows (Switch.withCurrentLine switch peer).1.store peer
        { here with currentLine := some (here.currentLine.getD (.new 0)) } := by
  have shown := shows_.currentLine
  cases current : (switch.store.identities peer).currentLine with
  | some held =>
      simp only [currentLineOf, current, Option.map_some] at shown
      simp only [Switch.withCurrentLine, current, shown, Option.getD_some]
      constructor
      · trivial
      · constructor
        · exact shows_.channels
        · simp [currentLineOf, current]
  | none =>
      simp only [currentLineOf, current, Option.map_none] at shown
      simp only [Switch.withCurrentLine, current, shown, Option.getD_none]
      constructor
      · simp [Switch.THSwitch.updateStore]
      · constructor
        · simp only [Switch.THSwitch.updateStore, identities_updateIdentity_same]
          exact shows_.channels
        · simp [Switch.THSwitch.updateStore, currentLineOf, Store.allocLine]
          rfl

theorem shows_generateOpen {switch generated : Switch.THSwitch} {fresh : Switch.Fresh}
    {opened : Option CipherSet.Opened} (shows_ : Shows switch.store peer here)
    (current : (switch.store.identities peer).currentLine = some line)
    (built : Switch.generateOpen prim switch fresh line = .ok (generated, opened)) :
    Shows generated.store peer
      { here with
        currentLine := some { unkeyed (switch.store.lines line) with
          inLineId := (switch.store.lines line).inLineId.or
            (opened.map fun _ => fresh.lineId) } } := by
  unfold Switch.generateOpen at built
  dsimp only at built
  split at built
  · cases built
    constructor
    · exact shows_.channels
    · rw [currentLineOf, current]
      simp [unkeyed]
  · obtain ⟨⟨info, keys⟩, _, built⟩ := (bind_ok_iff _ _ _).mp built
    cases built
    have shown := shows_updateLine shows_ current fun held => { held with
      cipherSetInfo := some info
      inLineId := some ((switch.store.lines line).inLineId.getD fresh.lineId) }
    have named : (switch.store.lines line).inLineId.or (some fresh.lineId) =
        some ((switch.store.lines line).inLineId.getD fresh.lineId) := by
      cases (switch.store.lines line).inLineId <;> rfl
    rw [Option.map_some, named]
    exact shown

theorem shows_closeLine {switch : Switch.THSwitch} (shows_ : Shows switch.store peer here)
    (current : (switch.store.identities peer).currentLine = some line)
    (owner : (switch.store.lines line).toIdentity = peer) :
    Shows (Switch.closeLine switch line).store peer { here with currentLine := none } := by
  have forgotten : ∀ held : Switch.THSwitch, (Switch.forgetLine held line).store = held.store := by
    intro held
    unfold Switch.forgetLine
    split <;> rfl
  simp only [Switch.closeLine, Switch.THSwitch.toIdentity, owner, current, ↓reduceIte,
    Switch.THSwitch.updateStore, forgotten]
  constructor
  · rw [identities_updateIdentity_same]
    exact shows_.channels
  · simp [currentLineOf]

theorem shows_lineTimeout {switch : Switch.THSwitch} (job : Nat)
    (shows_ : Shows switch.store peer here) :
    Shows (Switch.lineTimeout switch job peer).store peer (lineTimeout here) := by
  have named : (here.currentLine.bind THLine.inLineId).isSome =
      ((switch.store.identities peer).currentLine.bind fun line =>
        (switch.store.lines line).inLineId).isSome := by
    rw [shows_.currentLine, currentLineOf]
    cases (switch.store.identities peer).currentLine <;> rfl
  simp only [lineTimeout, Switch.lineTimeout, named]
  split
  · exact shows_
  · constructor
    · simp only [Switch.THSwitch.updateStore, identities_updateIdentity_same]
      exact shows_.channels
    · simp [Switch.THSwitch.updateStore, currentLineOf]

end Switch

/-! ## When ids stay apart -/

/-- The end's own half of the numbers. -/
def Own (here : End) (id : Nat) : Prop := id % 2 = here.startChannelId % 2

/-- The id can still come up at an end: on a registered channel, on one that
waits, or on a packet. -/
def Held (here : End) (id : Nat) : Prop :=
  here.registered id = true ∨ (∃ channel ∈ here.pendingJobs, channel.givenId = some id) ∨
    id ∈ here.travelling

/-- No own id above the bound comes up at either end. -/
def NoneAbove (here there : End) (bound : Nat) : Prop :=
  ∀ id, Own here id → Held here id ∨ Held there id → id ≤ bound

/-- Ids are drawn from an opened line, or by the end that counts from 2 anyway
when none above is left; a line is opened or opened again once no id of its
end is left from before; and no channel is opened under the id of another. -/
structure Careful (here there : End) (event : Event) : Prop where
  draws : ∀ line, numbers here event = some line →
    line.nextChannelId + 2 < uintModulus ∧
      (line.isOpen = true ∨ (here.startChannelId = 2 ∧ NoneAbove here there line.nextChannelId))
  opens : ∀ outLineId time inLineId, event = .processOpen outLineId time inLineId →
    turnsAway here outLineId time = false →
    NoneAbove (makeRoom here time) there here.startChannelId
  replaces : ∀ channel id, given here event = some channel → channel.givenId = some id →
    (∀ ref, here.channels.lookup id = some ref → ref = channel.ref) ∧
      ∀ line, here.currentLine = some line → line.isOpen = true → Own here id →
        id ≤ line.nextChannelId

/-- What a step leaves of the current line. -/
inductive LineAfter (here : End) (event : Event) : Option THLine → Prop where
  | gone : LineAfter here event none
  | made (line : THLine) (unopened : line.isOpen = false) (unused : line.nextChannelId = 0) :
      LineAfter here event (some line)
  | kept (line after : THLine) (current : here.currentLine = some line)
      (undrawn : numbers here event = none) (same : after.isOpen = line.isOpen)
      (counted : after.nextChannelId = line.nextChannelId) : LineAfter here event (some after)
  | numbered (line after : THLine) (current : here.currentLine = some line)
      (asked : numbers here event = some line) (same : after.isOpen = line.isOpen)
      (counted : after.nextChannelId = nextChannelId line) : LineAfter here event (some after)
  | opened (outLineId : Option Json) (time : Nat) (inLineId : Option String) (after : THLine)
      (isOpen_ : event = .processOpen outLineId time inLineId)
      (accepted : turnsAway here outLineId time = false) (opened : after.isOpen = true)
      (counted : after.nextChannelId = here.startChannelId)
      (rest : ∀ id, Held (step here event) id → Held (makeRoom here time) id) :
      LineAfter here event (some after)

section Steps
variable {here there : End} {event : Event} {id : Nat}

/-- The id an event brings along. -/
def brought : Event → Option Nat
  | .openChannel _ _ channel => channel.givenId
  | .handlePacket id _ => some id
  | .sendPacket id => some id
  | _ => none

theorem registered_insert {channels : Dictionary Nat ChannelRef} {key : Nat} {ref : ChannelRef}
    (found : ((channels.insert key ref).lookup id).isSome = true) :
    id = key ∨ (channels.lookup id).isSome = true := by
  rw [lookup_insert] at found
  by_cases same : id = key
  · exact Or.inl same
  · rw [if_neg same] at found
    exact Or.inr found

theorem registered_erase {channels : Dictionary Nat ChannelRef} {key : Nat}
    (found : ((channels.erase key).lookup id).isSome = true) :
    (channels.lookup id).isSome = true := by
  rw [lookup_erase] at found
  by_cases same : id = key
  · simp [same] at found
  · rwa [if_neg same] at found

theorem held_switchOpenLine {reachable : Bool} {inLineId : Option String} :
    Held (switchOpenLine here reachable inLineId) id ↔ Held here id := by
  cases reachable <;> rfl

/-- Putting a channel under an id adds no other id. -/
theorem held_insert {key : Nat} {ref : ChannelRef}
    (held : Held { here with channels := here.channels.insert key ref } id) :
    Held here id ∨ key = id := by
  rcases held with registered | waiting | travelling
  · rcases registered_insert registered with same | before
    · exact Or.inr same.symm
    · exact Or.inl (Or.inl before)
  · exact Or.inl (Or.inr (Or.inl waiting))
  · exact Or.inl (Or.inr (Or.inr travelling))

theorem held_unqueued {index : Nat}
    (held : Held { here with pendingJobs := here.pendingJobs.eraseIdx index } id) :
    Held here id := by
  rcases held with registered | ⟨waits, member, known⟩ | travelling
  · exact Or.inl registered
  · exact Or.inr (Or.inl ⟨waits, List.eraseIdx_subset member, known⟩)
  · exact Or.inr (Or.inr travelling)

theorem held_queued {channel : THChannel}
    (held : Held { here with pendingJobs := here.pendingJobs ++ [channel] } id) :
    Held here id ∨ channel.givenId = some id := by
  rcases held with registered | ⟨waits, member, known⟩ | travelling
  · exact Or.inl (Or.inl registered)
  · rcases List.mem_append.mp member with before | new
    · exact Or.inl (Or.inr (Or.inl ⟨waits, before, known⟩))
    · rw [List.mem_singleton.mp new] at known
      exact Or.inr known
  · exact Or.inl (Or.inr (Or.inr travelling))

theorem held_sent {key : Nat}
    (held : Held { here with travelling := here.travelling ++ [key] } id) :
    Held here id ∨ key = id := by
  rcases held with registered | waiting | travelling
  · exact Or.inl (Or.inl registered)
  · exact Or.inl (Or.inr (Or.inl waiting))
  · rcases List.mem_append.mp travelling with before | new
    · exact Or.inl (Or.inr (Or.inr before))
    · exact Or.inr (List.mem_singleton.mp new).symm

theorem held_lost {key : Nat}
    (held : Held { here with travelling := here.travelling.filter (· ≠ key) } id) :
    Held here id := by
  rcases held with registered | waiting | travelling
  · exact Or.inl registered
  · exact Or.inr (Or.inl waiting)
  · exact Or.inr (Or.inr (List.mem_of_mem_filter travelling))

theorem held_removed {key : Nat}
    (held : Held { here with channels := here.channels.erase key } id) : Held here id := by
  rcases held with registered | rest
  · exact Or.inl (registered_erase registered)
  · exact Or.inr rest

theorem held_closed (held : Held { here with channels := .empty } id) : Held here id := by
  rcases held with registered | rest
  · simp [End.registered] at registered
  · exact Or.inr rest

theorem held_makeRoom {time : Nat} (held : Held (makeRoom here time) id) : Held here id := by
  simp only [makeRoom] at held
  split at held
  · exact held_closed held
  · exact held

theorem makeRoom_names (here : End) (time : Nat) :
    (makeRoom here time).hashname = here.hashname ∧
      (makeRoom here time).toHashname = here.toHashname ∧
      (makeRoom here time).allocated = here.allocated := by
  simp only [makeRoom]
  split <;> exact ⟨rfl, rfl, rfl⟩

theorem makeRoom_startChannelId {time : Nat} :
    (makeRoom here time).startChannelId = here.startChannelId := by
  obtain ⟨own, peer, _⟩ := makeRoom_names here time
  simp only [End.startChannelId, own, peer]

/-- What a step leaves of an end: nothing comes up but what did before, a new id
or what the event brings, and nothing is given out but the new id. -/
structure Leaves (here : End) (event : Event) (after : End) : Prop where
  hashname : after.hashname = here.hashname
  toHashname : after.toHashname = here.toHashname
  allocated : ∀ id ∈ after.allocated, id ∈ here.allocated ∨ drawn here event = some id
  held : ∀ id, Held after id → Held here id ∨ drawn here event = some id ∨ brought event = some id
  currentLine : LineAfter here event after.currentLine

theorem lineAfter_kept (undrawn : numbers here event = none) :
    LineAfter here event here.currentLine := by
  cases current : here.currentLine with
  | none => exact .gone
  | some line => exact .kept line line current undrawn rfl rfl

theorem lineAfter_switchOpenLine {reachable : Bool} {inLineId : Option String} {queued : End}
    (same : queued.currentLine = here.currentLine) (undrawn : numbers here event = none) :
    LineAfter here event (switchOpenLine queued reachable inLineId).currentLine := by
  cases reachable with
  | false =>
      simp only [switchOpenLine, Bool.false_eq_true, ↓reduceIte, same]
      exact lineAfter_kept undrawn
  | true =>
      simp only [switchOpenLine, ↓reduceIte, same]
      cases current : here.currentLine with
      | none => exact .made _ rfl rfl
      | some line => exact .kept line _ current undrawn rfl rfl

/-- An event that draws nothing and changes no line. -/
theorem leaves_others {after : End} (undrawn : numbers here event = none)
    (named : after.hashname = here.hashname ∧ after.toHashname = here.toHashname)
    (allocated : after.allocated = here.allocated) (same : after.currentLine = here.currentLine)
    (held : ∀ id, Held after id → Held here id ∨ brought event = some id) :
    Leaves here event after := by
  constructor
  · exact named.1
  · exact named.2
  · intro id member
    rw [allocated] at member
    exact Or.inl member
  · exact fun id comes => (held id comes).imp_right Or.inr
  · rw [same]
    exact lineAfter_kept undrawn

theorem leaves_switchOpenLine {reachable : Bool} {inLineId : Option String} {queued : End}
    (undrawn : numbers here event = none)
    (named : queued.hashname = here.hashname ∧ queued.toHashname = here.toHashname)
    (allocated : queued.allocated = here.allocated)
    (same : queued.currentLine = here.currentLine)
    (held : ∀ id, Held queued id → Held here id ∨ brought event = some id) :
    Leaves here event (switchOpenLine queued reachable inLineId) := by
  constructor
  · cases reachable <;> exact named.1
  · cases reachable <;> exact named.2
  · intro id member
    cases reachable <;> exact Or.inl (allocated ▸ member)
  · exact fun id comes => (held id (held_switchOpenLine.mp comes)).imp_right Or.inr
  · exact lineAfter_switchOpenLine same undrawn

/-- `channel:line:firstPacket:` with the current line, for a channel that is new
or comes from the queue. -/
theorem leaves_channelLine {line : THLine} {channel : THChannel} {unqueued : End}
    (current : here.currentLine = some line)
    (asked : numbers here event = if channel.givenId.isNone then some line else none)
    (named : unqueued.hashname = here.hashname ∧ unqueued.toHashname = here.toHashname)
    (allocated : unqueued.allocated = here.allocated)
    (same : unqueued.currentLine = some line) (held : ∀ id, Held unqueued id → Held here id)
    (known : ∀ id, channel.givenId = some id → Held here id ∨ brought event = some id) :
    Leaves here event (channelLine unqueued line channel) := by
  cases given : channel.givenId with
  | some key =>
      rw [given] at asked
      simp only [channelLine, given]
      refine leaves_others asked named allocated (same.trans current.symm) fun id comes => ?_
      rcases held_insert comes with before | rfl
      · exact Or.inl (held id before)
      · exact known _ given
  | none =>
      rw [given] at asked
      have draws : drawn here event = some (nextChannelId line) := by
        simp only [drawn, asked, Option.isNone_none, ↓reduceIte, Option.map_some]
      simp only [channelLine, given, allocate]
      constructor
      · exact named.1
      · exact named.2
      · intro id member
        rw [allocated] at member
        rcases List.mem_append.mp member with before | new
        · exact Or.inl before
        · rw [List.mem_singleton.mp new]
          exact Or.inr draws
      · intro id comes
        rcases held_insert comes with before | rfl
        · exact Or.inl (held id before)
        · exact Or.inr (Or.inl draws)
      · exact .numbered line _ current asked rfl rfl

theorem leaves_accepted {outLineId : Option Json} {time : Nat} {inLineId : Option String}
    (accepted : turnsAway here outLineId time = false) :
    Leaves here (.processOpen outLineId time inLineId)
      (step here (.processOpen outLineId time inLineId)) := by
  have opens : step here (.processOpen outLineId time inLineId) =
      openLine (makeRoom here time)
        { handleOpen outLineId time (here.currentLine.getD (.new 0)) with
          inLineId := (here.currentLine.getD (.new 0)).inLineId.or inLineId } := by
    simp only [step, processOpen, accepted, Bool.false_eq_true, ↓reduceIte, handleOpen]
  have rest : ∀ id, Held (step here (.processOpen outLineId time inLineId)) id →
      Held (makeRoom here time) id := by
    intro id held
    rw [opens] at held
    exact held
  obtain ⟨own, peer, allocated⟩ := makeRoom_names here time
  constructor
  · rw [opens]
    exact own
  · rw [opens]
    exact peer
  · intro id member
    rw [opens] at member
    exact Or.inl (allocated ▸ member)
  · exact fun id held => Or.inl (held_makeRoom (rest id held))
  · rw [opens]
    exact .opened outLineId time inLineId _ rfl accepted rfl makeRoom_startChannelId rest

/-- Each event leaves what it should. -/
theorem step_leaves (here : End) (event : Event) : Leaves here event (step here event) := by
  cases event with
  | openLine reachable inLineId =>
      exact leaves_switchOpenLine rfl ⟨rfl, rfl⟩ rfl rfl fun _ held => Or.inl held
  | openChannel reachable inLineId channel =>
      simp only [step, openChannel]
      cases current : here.currentLine with
      | none =>
          have undrawn : numbers here (.openChannel reachable inLineId channel) = none := by
            simp [numbers, reaches, current]
          exact leaves_switchOpenLine undrawn ⟨rfl, rfl⟩ rfl current.symm fun _ held =>
            held_queued held
      | some line =>
          exact leaves_channelLine current (by simp [numbers, reaches, current]) ⟨rfl, rfl⟩ rfl
            current (fun _ held => held) fun _ given => Or.inr given
  | processOpen outLineId time inLineId =>
      by_cases turned : turnsAway here outLineId time = true
      · simp only [step, processOpen, turned, ↓reduceIte]
        exact leaves_others rfl ⟨rfl, rfl⟩ rfl rfl fun _ held => Or.inl held
      · exact leaves_accepted (Bool.eq_false_iff.mpr turned)
  | releaseChannel index =>
      simp only [step, releaseChannel]
      cases queued : here.pendingJobs[index]? with
      | none =>
          exact leaves_others (by simp [numbers, reaches, queued]) ⟨rfl, rfl⟩ rfl rfl
            fun _ held => Or.inl held
      | some channel =>
          cases current : here.currentLine with
          | none =>
              exact leaves_others (by simp [numbers, reaches, queued, current]) ⟨rfl, rfl⟩ rfl
                rfl fun _ held => Or.inl held
          | some line =>
              exact leaves_channelLine current (by simp [numbers, reaches, queued, current])
                ⟨rfl, rfl⟩ rfl rfl (fun _ held => held_unqueued held) fun _ given =>
                  Or.inl (Or.inr (Or.inl ⟨channel, List.mem_of_getElem? queued, given⟩))
  | dropChannel index =>
      exact leaves_others rfl ⟨rfl, rfl⟩ rfl rfl fun _ held => Or.inl (held_unqueued held)
  | nextChannelId =>
      simp only [step]
      cases current : here.currentLine with
      | none =>
          exact leaves_others current ⟨rfl, rfl⟩ rfl rfl fun _ held => Or.inl held
      | some line =>
          constructor
          · rfl
          · rfl
          · intro id member
            rcases List.mem_append.mp member with before | new
            · exact Or.inl before
            · simp [drawn, numbers, current, List.mem_singleton.mp new]
          · exact fun id held => Or.inl held
          · exact .numbered line _ current current rfl rfl
  | handlePacket key ref =>
      simp only [step, handlePacket]
      split
      · exact leaves_others rfl ⟨rfl, rfl⟩ rfl rfl fun _ held => Or.inl held
      · exact leaves_others rfl ⟨rfl, rfl⟩ rfl rfl
          fun _ held => (held_insert held).imp_right (congrArg some)
  | sendPacket key =>
      exact leaves_others rfl ⟨rfl, rfl⟩ rfl rfl
        fun _ held => (held_sent held).imp_right (congrArg some)
  | losePackets key =>
      exact leaves_others rfl ⟨rfl, rfl⟩ rfl rfl fun _ held => Or.inl (held_lost held)
  | removeChannel key =>
      exact leaves_others rfl ⟨rfl, rfl⟩ rfl rfl fun _ held => Or.inl (held_removed held)
  | closeChannels =>
      exact leaves_others rfl ⟨rfl, rfl⟩ rfl rfl fun _ held => Or.inl (held_closed held)
  | closeLine => exact ⟨rfl, rfl, fun _ => Or.inl, fun _ => Or.inl, .gone⟩
  | lineTimeout =>
      simp only [step, lineTimeout]
      split
      · exact leaves_others rfl ⟨rfl, rfl⟩ rfl rfl fun _ held => Or.inl held
      · exact ⟨rfl, rfl, fun _ => Or.inl, fun _ => Or.inl, .gone⟩

theorem step_startChannelId (here : End) (event : Event) :
    (step here event).startChannelId = here.startChannelId := by
  have leaves := step_leaves here event
  simp only [End.startChannelId, leaves.hashname, leaves.toHashname]

theorem numbers_current {line : THLine} (asked : numbers here event = some line) :
    here.currentLine = some line := by
  have given : ∀ channel : THChannel, (here.currentLine.map (channel, ·)).bind
      (fun (channel, line) => if channel.givenId.isNone then some line else none) = some line →
      here.currentLine = some line := by
    intro channel asked
    cases current : here.currentLine with
    | none => simp [current] at asked
    | some held =>
        simp only [current, Option.map_some, Option.bind_some] at asked
        split at asked
        · exact asked
        · cases asked
  cases event with
  | nextChannelId => exact asked
  | openChannel reachable inLineId channel => exact given channel asked
  | releaseChannel index =>
      simp only [numbers, reaches] at asked
      cases queued : here.pendingJobs[index]? with
      | none => simp [queued] at asked
      | some channel => exact given channel (by simpa [queued] using asked)
  | _ => cases asked

/-- An event that brings an id draws none. -/
theorem numbers_brought (brings : brought event = some id) : numbers here event = none := by
  cases event with
  | openChannel reachable inLineId channel =>
      simp only [brought] at brings
      cases current : here.currentLine with
      | none => simp [numbers, reaches, current]
      | some line => simp [numbers, reaches, current, brings]
  | handlePacket key ref => rfl
  | sendPacket key => rfl
  | _ => cases brings

/-- What an event brings is up already, or is an end's own id on a channel
that it opens again. -/
theorem brought_possible (possible : Possible here there event) (brings : brought event = some id) :
    (Held here id ∨ Held there id) ∨ (id ∈ here.allocated ∧
      ∀ line, here.currentLine = some line →
        ∃ channel, given here event = some channel ∧ channel.givenId = some id) := by
  cases event with
  | openChannel reachable inLineId channel =>
      rcases possible id brings with travelling | registered | own
      · exact Or.inl (Or.inr (Or.inr (Or.inr travelling)))
      · exact Or.inl (Or.inl (Or.inl registered))
      · refine Or.inr ⟨own, fun line current => ⟨channel, ?_, brings⟩⟩
        simp only [brought] at brings
        simp [given, reaches, current, brings]
  | handlePacket key ref =>
      cases brings
      exact Or.inl (Or.inr (Or.inr (Or.inr possible)))
  | sendPacket key =>
      cases brings
      exact Or.inl (Or.inl (Or.inl possible))
  | _ => cases brings

end Steps

/-! ## The invariant -/

/-- The two ends know each other by name, an opened line counts an end's own ids
from above all that are left, and a line not opened yet counts evenly. -/
structure Numbered (here there : End) : Prop where
  named : here.toHashname = there.hashname ∧ there.toHashname = here.hashname
  distinct : here.hashname ≠ there.hashname
  opened : ∀ line, here.currentLine = some line → line.isOpen = true →
    Own here line.nextChannelId ∧ NoneAbove here there line.nextChannelId
  unopened : ∀ line, here.currentLine = some line → line.isOpen = false →
    line.nextChannelId % 2 = 0
  allocated : ∀ id ∈ here.allocated, Own here id

section Invariant
variable {here there : End} {event : Event} {id : Nat}

theorem own_apart (numbered : Numbered here there) (own : Own here id) : ¬ Own there id := by
  obtain ⟨named, namedThere⟩ := numbered.named
  unfold Own at own ⊢
  rw [own]
  unfold End.startChannelId
  rw [named, namedThere]
  rcases lt_or_gt_of_ne numbered.distinct with below | above
  · simp [below, not_lt_of_gt below]
  · simp [above, not_lt_of_gt above]

/-- A careful end draws from its own half, above all that is left. -/
theorem draws_own (numbered : Numbered here there) (careful : Careful here there event)
    {line : THLine} (asked : numbers here event = some line) :
    nextChannelId line = line.nextChannelId + 2 ∧ Own here (nextChannelId line) ∧
      NoneAbove here there line.nextChannelId := by
  have current := numbers_current asked
  obtain ⟨fits, opened⟩ := careful.draws line asked
  have next : nextChannelId line = line.nextChannelId + 2 := Nat.mod_eq_of_lt fits
  rw [next]
  rcases opened with opened | ⟨second, none⟩
  · obtain ⟨own, none⟩ := numbered.opened line current opened
    exact ⟨rfl, by unfold Own at own ⊢; omega, none⟩
  · refine ⟨rfl, ?_, none⟩
    cases opened : line.isOpen with
    | true =>
        have own := (numbered.opened line current opened).1
        unfold Own at own ⊢
        omega
    | false =>
        have even := numbered.unopened line current opened
        unfold Own
        omega

theorem drawn_own (numbered : Numbered here there) (careful : Careful here there event)
    (draws : drawn here event = some id) : Own here id := by
  obtain ⟨line, asked, rfl⟩ := Option.map_eq_some_iff.mp draws
  exact (draws_own numbered careful asked).2.1

theorem own_step (here : End) (event : Event) : Own (step here event) id ↔ Own here id := by
  unfold Own
  rw [step_startChannelId]

theorem fresh_careful (numbered : Numbered here there) (other : Numbered there here)
    (careful : Careful here there event) : Fresh here there event := by
  constructor
  · intro id draws
    obtain ⟨line, asked, rfl⟩ := Option.map_eq_some_iff.mp draws
    obtain ⟨next, own, none⟩ := draws_own numbered careful asked
    have unheld : ¬ (Held here (nextChannelId line) ∨ Held there (nextChannelId line)) := by
      intro held
      have below := none _ own held
      omega
    refine ⟨?_, ?_, fun allocated => own_apart numbered own (other.allocated _ allocated)⟩
    · exact Bool.eq_false_iff.mpr fun registered => unheld (Or.inl (Or.inl registered))
    · exact Bool.eq_false_iff.mpr fun registered => unheld (Or.inr (Or.inl registered))
  · intro channel id ref known named found
    exact (careful.replaces channel id known named).1 ref found

/-- The line the acting end is left with counts its own ids once it is opened. -/
theorem acting_opened (numbered : Numbered here there) (possible : Possible here there event)
    (careful : Careful here there event) {after : THLine}
    (current : (step here event).currentLine = some after) (opened : after.isOpen = true) :
    Own here after.nextChannelId ∧
      NoneAbove (step here event) there after.nextChannelId := by
  have leaves := step_leaves here event
  have left := leaves.currentLine
  rw [current] at left
  cases left with
  | made _ unopened unused => simp [unopened] at opened
  | kept line _ before undrawn same counted =>
      rw [same] at opened
      rw [counted]
      obtain ⟨counts, none⟩ := numbered.opened line before opened
      refine ⟨counts, fun id owned held => ?_⟩
      rw [own_step] at owned
      rcases held with held | held
      · rcases leaves.held id held with held | draws | brings
        · exact none id owned (Or.inl held)
        · simp [drawn, undrawn] at draws
        · -- a channel brought back keeps the id it had
          rcases brought_possible possible brings with held | ⟨_, again⟩
          · exact none id owned held
          · obtain ⟨channel, known, named⟩ := again line before
            exact (careful.replaces channel id known named).2 line before opened owned
      · exact none id owned (Or.inr held)
  | numbered line _ before asked same counted =>
      rw [counted]
      obtain ⟨next, counts, none⟩ := draws_own numbered careful asked
      refine ⟨counts, fun id owned held => ?_⟩
      rw [own_step] at owned
      have below : id ≤ line.nextChannelId ∨ id = nextChannelId line := by
        rcases held with held | held
        · rcases leaves.held id held with held | draws | brings
          · exact Or.inl (none id owned (Or.inl held))
          · rw [drawn, asked] at draws
            exact Or.inr (Option.some.inj draws).symm
          · rw [numbers_brought brings] at asked
            cases asked
        · exact Or.inl (none id owned (Or.inr held))
      omega
  | opened outLineId time inLineId _ isOpen_ accepted _ counted rest =>
      rw [counted]
      have none := careful.opens outLineId time inLineId isOpen_ accepted
      refine ⟨rfl, fun id owned held => none id ?_ (held.imp_left (rest id))⟩
      rw [own_step] at owned
      unfold Own at owned ⊢
      rwa [makeRoom_startChannelId]

theorem acting_unopened (numbered : Numbered here there) (careful : Careful here there event)
    {after : THLine} (current : (step here event).currentLine = some after)
    (unopened : after.isOpen = false) : after.nextChannelId % 2 = 0 := by
  have left := (step_leaves here event).currentLine
  rw [current] at left
  cases left with
  | made _ _ unused => rw [unused]
  | kept line _ before _ same counted =>
      rw [counted]
      exact numbered.unopened line before (same.symm.trans unopened)
  | numbered line _ before asked same counted =>
      rw [counted, (draws_own numbered careful asked).1]
      have even := numbered.unopened line before (same.symm.trans unopened)
      omega
  | opened _ _ _ _ _ _ opened => simp [opened] at unopened

/-- The acting end keeps its numbers apart. -/
theorem numbered_acting (numbered : Numbered here there) (possible : Possible here there event)
    (careful : Careful here there event) : Numbered (step here event) there := by
  have leaves := step_leaves here event
  constructor
  · rw [leaves.hashname, leaves.toHashname]
    exact numbered.named
  · rw [leaves.hashname]
    exact numbered.distinct
  · intro after current opened
    rw [own_step]
    exact acting_opened numbered possible careful current opened
  · exact fun after current => acting_unopened numbered careful current
  · intro id member
    rw [own_step]
    rcases leaves.allocated id member with before | draws
    · exact numbered.allocated id before
    · exact drawn_own numbered careful draws

/-- So does the end that only watches, as what is new there is not its own. -/
theorem numbered_watching (numbered : Numbered there here) (other : Numbered here there)
    (possible : Possible here there event) (careful : Careful here there event) :
    Numbered there (step here event) := by
  have leaves := step_leaves here event
  constructor
  · rw [leaves.hashname, leaves.toHashname]
    exact numbered.named
  · rw [leaves.hashname]
    exact numbered.distinct
  · intro line current opened
    obtain ⟨counts, none⟩ := numbered.opened line current opened
    refine ⟨counts, fun id owned held => ?_⟩
    rcases held with held | held
    · exact none id owned (Or.inl held)
    · rcases leaves.held id held with held | draws | brings
      · exact none id owned (Or.inr held)
      · exact absurd owned (own_apart other (drawn_own other careful draws))
      · rcases brought_possible possible brings with held | ⟨allocated, _⟩
        · exact none id owned held.symm
        · exact absurd owned (own_apart other (other.allocated id allocated))
  · exact numbered.unopened
  · exact numbered.allocated

end Invariant

def BothNumbered (pair : Side → End) : Prop :=
  ∀ side, Numbered (pair side) (pair side.other)

theorem bothNumbered_start {pair : Side → End} (strangers : Strangers pair) :
    BothNumbered pair := by
  intro side
  constructor
  · refine ⟨strangers.named side, ?_⟩
    have named := strangers.named side.other
    rwa [other_other] at named
  · cases side with
    | near => exact strangers.distinct
    | far => exact strangers.distinct.symm
  · intro line current
    rw [strangers.unlined side] at current
    cases current
  · intro line current
    rw [strangers.unlined side] at current
    cases current
  · rw [strangers.noneAllocated side]
    exact List.forall_mem_nil _

theorem bothNumbered_act (pair : Side → End) (action : Action Event)
    (condition : At Possible pair action ∧ At Careful pair action) (both : BothNumbered pair) :
    BothNumbered (act step pair action) := by
  obtain ⟨side, event⟩ := action
  obtain ⟨possible, careful⟩ := condition
  have there := both side.other
  rw [other_other] at there
  apply each_side
  · exact numbered_acting (both side) possible careful
  · exact numbered_watching there (both side) possible careful

theorem fresh_act (pair : Side → End) (action : Action Event)
    (condition : At Possible pair action ∧ At Careful pair action) (both : BothNumbered pair) :
    At Fresh pair action := by
  have there := both action.side.other
  rw [other_other] at there
  exact fresh_careful (both action.side) there condition.2

theorem disjoint_bothNumbered (pair : Side → End) (both : BothNumbered pair) : Disjoint pair := by
  intro id near far
  exact own_apart (both .near) ((both .near).allocated id near) ((both .far).allocated id far)

/-- In every run whose steps are careful no new id is registered at either end,
no channel is replaced by another, and the two ends share no id they gave out. -/
theorem channel_ids_apart {start : Side → End} (strangers : Strangers start)
    (actions : List (Action Event)) (possible : Along (act step) (At Possible) start actions)
    (careful : Along (act step) (At Careful) start actions) :
    Along (act step) (At Fresh) start actions ∧ Throughout (act step) Disjoint start actions := by
  have condition := (along_and start actions).mpr ⟨possible, careful⟩
  have numbered := bothNumbered_start strangers
  constructor
  · exact along_invariant bothNumbered_act fresh_act start actions numbered condition
  · exact throughout_mono disjoint_bothNumbered start actions
      (throughout_invariant bothNumbered_act start actions numbered condition)

/-! ## Two switches meet -/

def strangerOf (side : Side) : End where
  hashname := match side with
    | .near => "0a"
    | .far => "0b"
  toHashname := match side with
    | .near => "0b"
    | .far => "0a"
  currentLine := none
  channels := .empty
  pendingJobs := []
  travelling := []
  allocated := []

theorem strangers_strangerOf : Strangers strangerOf where
  distinct := by decide
  named side := by cases side <;> rfl
  unlined _ := rfl
  noChannels _ := rfl
  nonePending _ := rfl
  noneSent _ := rfl
  noneAllocated _ := rfl

/-- A line id of the end, drawn with its open. -/
def lineIdOf : Side → String
  | .near => "0e"
  | .far => "0f"

/-- Each end opens a channel and waits for the other's open. -/
def patientMeeting : List (Action Event) :=
  [⟨.near, .openChannel true (some (lineIdOf .near)) ⟨0, none⟩⟩,
    ⟨.far, .openChannel true (some (lineIdOf .far)) ⟨0, none⟩⟩,
    ⟨.near, .processOpen (some (.string (lineIdOf .far))) 1 none⟩,
    ⟨.far, .processOpen (some (.string (lineIdOf .near))) 1 none⟩,
    ⟨.near, .releaseChannel 0⟩, ⟨.far, .releaseChannel 0⟩]

theorem noneAbove_unnumbered {here there : End} (bound : Nat)
    (channels : here.channels = .empty ∧ there.channels = .empty)
    (waiting : ∀ channel ∈ here.pendingJobs ++ there.pendingJobs, channel.givenId = none)
    (travelling : here.travelling = [] ∧ there.travelling = []) : NoneAbove here there bound := by
  have unheld : ∀ {held : End} {id}, held.channels = .empty →
      (∀ channel ∈ held.pendingJobs, channel.givenId = none) → held.travelling = [] →
      ¬ Held held id := by
    rintro held id channels waiting travelling (registered | ⟨channel, member, named⟩ | sent)
    · simp [End.registered, channels] at registered
    · rw [waiting channel member] at named
      cases named
    · rw [travelling] at sent
      cases sent
  rintro id _ (held | held)
  · exact absurd held (unheld channels.1
      (fun channel member => waiting channel (List.mem_append_left _ member)) travelling.1)
  · exact absurd held (unheld channels.2
      (fun channel member => waiting channel (List.mem_append_right _ member)) travelling.2)

theorem careful_undrawn {here there : End} {event : Event} (undrawn : numbers here event = none)
    (ungiven : given here event = none)
    (unopened : ∀ outLineId time inLineId, event ≠ .processOpen outLineId time inLineId) :
    Careful here there event where
  draws line asked := by
    rw [undrawn] at asked
    cases asked
  opens outLineId time inLineId isOpen := absurd isOpen (unopened outLineId time inLineId)
  replaces channel id known := by
    rw [ungiven] at known
    cases known

theorem careful_opens {here there : End} {outLineId : Option Json} {time : Nat}
    {inLineId : Option String}
    (none : NoneAbove (makeRoom here time) there here.startChannelId) :
    Careful here there (.processOpen outLineId time inLineId) where
  draws line asked := by cases asked
  opens _ _ _ isOpen _ := by
    cases isOpen
    exact none
  replaces channel id known := by cases known

theorem careful_releases {here there : End} {index : Nat} {line : THLine}
    (current : here.currentLine = some line) (opened : line.isOpen = true)
    (fits : line.nextChannelId + 2 < uintModulus)
    (ungiven : given here (.releaseChannel index) = none) :
    Careful here there (.releaseChannel index) where
  draws asked numbered := by
    have same := (numbers_current numbered).symm.trans current
    cases same
    exact ⟨fits, Or.inl opened⟩
  opens _ _ _ isOpen := by cases isOpen
  replaces channel id known := by
    rw [ungiven] at known
    cases known

theorem patient_possible : Along (act step) (At Possible) strangerOf patientMeeting := by
  refine ⟨?_, ?_, trivial, trivial, trivial, trivial, trivial⟩
  · intro id named
    cases named
  · intro id named
    cases named

theorem patient_careful : Along (act step) (At Careful) strangerOf patientMeeting := by
  refine ⟨?_, ?_, ?_, ?_, ?_, ?_, trivial⟩
  · exact careful_undrawn rfl rfl (by rintro _ _ _ ⟨⟩)
  · exact careful_undrawn rfl rfl (by rintro _ _ _ ⟨⟩)
  · apply careful_opens
    exact noneAbove_unnumbered _ ⟨rfl, rfl⟩ (by decide) ⟨rfl, rfl⟩
  · apply careful_opens
    exact noneAbove_unnumbered _ ⟨rfl, rfl⟩ (by decide) ⟨rfl, rfl⟩
  · exact careful_releases rfl rfl (by decide) rfl
  · exact careful_releases rfl rfl (by decide) rfl

/-- They get the ids 4 and 3. -/
theorem channel_ids_apart_patient :
    (Along (act step) (At Fresh) strangerOf patientMeeting ∧
      Throughout (act step) Disjoint strangerOf patientMeeting) ∧
    (run (act step) strangerOf patientMeeting .near).allocated = [4] ∧
      (run (act step) strangerOf patientMeeting .far).allocated = [3] :=
  ⟨channel_ids_apart strangers_strangerOf patientMeeting patient_possible patient_careful,
    by decide, by decide⟩

/-- Each end opens a channel as soon as its line is there, not yet opened. -/
def hastyMeeting : List (Action Event) :=
  [⟨.near, .openLine true (some (lineIdOf .near))⟩,
    ⟨.far, .openLine true (some (lineIdOf .far))⟩,
    ⟨.near, .openChannel true none ⟨0, none⟩⟩,
    ⟨.far, .openChannel true none ⟨0, none⟩⟩]

/-- Both ends give out 2. -/
theorem hasty_ids_collide : ¬ ∀ actions : List (Action Event),
    Along (act step) (At Possible) strangerOf actions →
    Along (act step) (At Fresh) strangerOf actions ∧
      Throughout (act step) Disjoint strangerOf actions := by
  intro every
  have possible : Along (act step) (At Possible) strangerOf hastyMeeting := by
    refine ⟨trivial, trivial, ?_, ?_, trivial⟩
    · intro id named
      cases named
    · intro id named
      cases named
  obtain ⟨_, _, _, last, _⟩ := (every hastyMeeting possible).1
  have unregistered := (last.unused 2 (by decide)).2.1
  revert unregistered
  decide

/-- Where a channel of the first id after the start is left behind when the line
opens again, the next channel opened takes its place. -/
theorem reopened_line_repeats {here : End} {outLineId : Option Json} {time : Nat}
    (accepted : turnsAway here outLineId time = false)
    (left : (makeRoom here time).registered (here.startChannelId + 2) = true)
    (inLineId : Option String) (reachable : Bool) (lineId : Option String) (ref : ChannelRef) :
    let opened := processOpen here outLineId time inLineId
    drawn opened (.openChannel reachable lineId ⟨ref, none⟩) = some (here.startChannelId + 2) ∧
      opened.registered (here.startChannelId + 2) = true := by
  have small : (here.startChannelId + 2) % uintModulus = here.startChannelId + 2 := by
    unfold End.startChannelId
    split <;> decide
  simp only [processOpen, accepted, Bool.false_eq_true, ↓reduceIte]
  constructor
  · simp [drawn, numbers, reaches, openLine, THChannel.givenId, nextChannelId,
      makeRoom_startChannelId, small]
  · exact left

end Telehash.ChannelIds
