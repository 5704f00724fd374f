import Telehash.Completions
import Telehash.LineWire
import Telehash.RelayPath

/-!
The ways a packet takes to `sendPacket:path:` of THLine.m: from the identity,
from a channel, and with a channel that is opened. They may come at any time in
the life of a line: before it is opened, while it is, and after it was closed.
-/

namespace Telehash.LineSending
open Association Foundation Packet PacketCodec Identity CipherSet Switch LineInfo HexString LineWire
open LineKeys Runs UnreliableChannel ReliableChannel

/-- What one call may draw, should it open the line again. -/
structure Draws where
  fresh : Fresh
  peerChannel : Option ChannelRef
  nonce : Data

inductive Channel where
  | unreliable (channel : THUnreliableChannel) (now : Nat)
  | reliable (channel : THReliableChannel)

/-- What `sendPacket:` of the channel hands to its identity, with its fields
on, unless it keeps the packet in its own buffer. -/
def Channel.handedOver (packet : THPacket) : Channel → Option THPacket
  | .unreliable channel now => RelayPath.handedOver (·.sendPacket now packet) channel
  | .reliable channel =>
      ((channel.sendPacket packet).history.transmitted.drop
        channel.history.transmitted.length).head?

/-- What became of a packet. -/
inductive Outcome where
  | departed (line : THLine) (packet : THPacket) (departure : Departure)
  -- in the block of a pending job
  | queued
  -- in a block that nothing keeps
  | forgotten
  | raised (fault : Fault)

variable (prim : Primitives) (ciphers : LineCiphers)

def reopened (switch : THSwitch) (draws : Draws) (toIdentity : IdentityRef) : THSwitch :=
  settle switch (Switch.openLine prim switch draws.fresh draws.peerChannel toIdentity)

/-- `sendPacket:path:` of THLine. -/
def lineSendPacket (switch : THSwitch) (draws : Draws) (line : LineRef) (packet : THPacket)
    (path : Option THPath) : THSwitch × Outcome :=
  let toIdentity := switch.toIdentity line
  match LineWire.sendPacket prim ciphers (switch.store.lines line)
      (switch.store.identities toIdentity) draws.nonce packet path with
  | .error fault => (switch, .raised fault)
  | .ok .openLine =>
      (reopened prim switch draws toIdentity,
        .departed (switch.store.lines line) packet .openLine)
  | .ok departure => (switch, .departed (switch.store.lines line) packet departure)

/-- `sendPacket:path:` of THIdentity. Without a line the packet is left in the
completion of `openLine:`, which only a new job keeps. -/
def sendPacket (switch : THSwitch) (draws : Draws) (toIdentity : IdentityRef) (packet : THPacket)
    (path : Option THPath) : THSwitch × Outcome :=
  match (switch.store.identities toIdentity).currentLine with
  | some line => lineSendPacket prim ciphers switch draws line packet path
  | none =>
      (reopened prim switch draws toIdentity,
        if pending prim switch toIdentity then .forgotten else .queued)

/-- `openChannel:firstPacket:`, with the packet as the opened channel hands it
over. Without a line the channel's own job keeps it. -/
def openChannel (switch : THSwitch) (draws : Draws) (toIdentity : IdentityRef)
    (firstPacket : THPacket) : THSwitch × Outcome :=
  match (switch.store.identities toIdentity).currentLine with
  | some line => lineSendPacket prim ciphers switch draws line firstPacket none
  | none => (reopened prim switch draws toIdentity, .queued)

/-- What happens at a switch. THLine sends its answers itself, and a completion
sends on the line current by then. -/
inductive Event where
  | line (event : LineKeys.Event)
  | sendPacket (draws : Draws) (toIdentity : IdentityRef) (packet : THPacket)
      (path : Option THPath)
  | openChannel (draws : Draws) (toIdentity : IdentityRef) (firstPacket : THPacket)
  | channelSendPacket (draws : Draws) (toIdentity : IdentityRef) (channel : Channel)
      (packet : THPacket)
  | lineSendPacket (draws : Draws) (line : LineRef) (packet : THPacket) (path : Option THPath)

def step (switch : THSwitch) : Event → THSwitch
  | .line event => LineKeys.step prim switch event
  | .sendPacket draws toIdentity packet path =>
      (sendPacket prim ciphers switch draws toIdentity packet path).1
  | .openChannel draws toIdentity firstPacket =>
      (openChannel prim ciphers switch draws toIdentity firstPacket).1
  | .channelSendPacket draws toIdentity channel packet =>
      match channel.handedOver packet with
      | none => switch
      | some handed => (sendPacket prim ciphers switch draws toIdentity handed none).1
  | .lineSendPacket draws line packet path =>
      (lineSendPacket prim ciphers switch draws line packet path).1

/-- The nonce drawn for the packet of an event, and what became of the packet. -/
def outcome (switch : THSwitch) : Event → Option (Data × Outcome)
  | .line _ => none
  | .sendPacket draws toIdentity packet path =>
      some (draws.nonce, (sendPacket prim ciphers switch draws toIdentity packet path).2)
  | .openChannel draws toIdentity firstPacket =>
      some (draws.nonce, (openChannel prim ciphers switch draws toIdentity firstPacket).2)
  | .channelSendPacket draws toIdentity channel packet =>
      (channel.handedOver packet).map fun handed =>
        (draws.nonce, (sendPacket prim ciphers switch draws toIdentity handed none).2)
  | .lineSendPacket draws line packet path =>
      some (draws.nonce, (lineSendPacket prim ciphers switch draws line packet path).2)

/-! ## What may leave a line -/

/-- The 16 bytes of `outLineId` and the packet sealed under `encryptorKey`. -/
def Framed (line : THLine) (nonce : Data) (packet : THPacket) (body : Data) : Prop :=
  ∃ lineId info key, line.outLineId = some (.string lineId) ∧
    (dataFromHexString lineId).length = lineIdLength ∧ line.cipherSetInfo = some info ∧
    encryptorKeyOf info = some key ∧
    body = dataFromHexString lineId ++
      sealing ciphers (csidOf info) nonce key (encode prim.serialization packet)

/-- The line has what `openLine` gives it. -/
def Completed (line : THLine) : Prop :=
  ∃ lineId key, line.outLineId = some (.string lineId) ∧ encryptorKey line = some key

def lineOut (body : Data) : THPacket := { THPacket.new with body := some body, jsonLength := 0 }

/-- Nothing leaves but frames, and an unfinished line takes no packet. -/
def Proper (nonce : Data) : Outcome → Prop
  | .departed line packet (.path _ datagram) =>
      ∃ body, Framed prim ciphers line nonce packet body ∧
        datagram = encode prim.serialization (lineOut body)
  | .departed line packet (.relay lineOutPacket) =>
      ∃ body, Framed prim ciphers line nonce packet body ∧ lineOutPacket = lineOut body
  | .departed line _ .openLine => Completed line
  | .queued => True
  | .forgotten => False
  | .raised _ => False

def SentProperly (switch : THSwitch) (event : Event) : Prop :=
  ∀ nonce result, outcome prim ciphers switch event = some (nonce, result) →
    Proper prim ciphers nonce result

/-- The packet has neither a path nor a relay to go to. -/
def Stranded (identity : THIdentity) (path : Option THPath) : Prop :=
  (path <|> identity.activePath) = none ∧ identity.relay = none

/-- The line is complete and knows a whole line id for what leaves it. -/
def LineReady (switch : THSwitch) (line : LineRef) (path : Option THPath) : Prop :=
  ∃ lineId key, (switch.store.lines line).outLineId = some (.string lineId) ∧
    encryptorKey (switch.store.lines line) = some key ∧
    ((dataFromHexString lineId).length = lineIdLength ∨
      Stranded (switch.store.identities (switch.toIdentity line)) path)

def IdentityReady (switch : THSwitch) (toIdentity : IdentityRef) (path : Option THPath) : Prop :=
  match (switch.store.identities toIdentity).currentLine with
  | some line => LineReady switch line path
  | none => pending prim switch toIdentity = false

def ChannelReady (switch : THSwitch) (toIdentity : IdentityRef) : Prop :=
  match (switch.store.identities toIdentity).currentLine with
  | some line => LineReady switch line none
  | none => True

def Ready (switch : THSwitch) : Event → Prop
  | .line _ => True
  | .sendPacket _ toIdentity _ path => IdentityReady prim switch toIdentity path
  | .openChannel _ toIdentity _ => ChannelReady switch toIdentity
  | .channelSendPacket _ toIdentity channel packet =>
      (channel.handedOver packet).isSome → IdentityReady prim switch toIdentity none
  | .lineSendPacket _ line _ path => LineReady switch line path

section Line
variable {prim ciphers} {line : THLine} {nonce : Data} {packet : THPacket}

theorem framed_completed {body : Data} (framed : Framed prim ciphers line nonce packet body) :
    ∃ lineId key, line.outLineId = some (.string lineId) ∧ encryptorKey line = some key ∧
      (dataFromHexString lineId).length = lineIdLength := by
  obtain ⟨lineId, info, key, named, whole, stored, keyed, _⟩ := framed
  refine ⟨lineId, key, named, ?_, whole⟩
  rw [encryptorKey, stored]
  exact keyed

variable (prim ciphers) in
/-- A complete line builds its packet from the line id and the sealed packet. -/
theorem lineOutPacket_completed {lineId : String} {key : Data} (packet : THPacket) (nonce : Data)
    (named : line.outLineId = some (.string lineId)) (keyed : encryptorKey line = some key) :
    ∃ info, line.cipherSetInfo = some info ∧ encryptorKeyOf info = some key ∧
      lineOutPacket prim ciphers line nonce packet = .ok (lineOut (dataFromHexString lineId ++
        sealing ciphers (csidOf info) nonce key (encode prim.serialization packet))) := by
  obtain ⟨info, stored, encrypts⟩ := Option.bind_eq_some_iff.mp keyed
  refine ⟨info, stored, encrypts, ?_⟩
  simp only [lineOutPacket, stored, encryptLinePacket_keyed prim ciphers nonce packet encrypts,
    ok_bind, pure_eq_ok, named, readText, Option.map_some, Option.getD_some, lineOut]

/-- Only a packet that is stranded makes the line open again. -/
theorem sendPacket_openLine {toIdentity : THIdentity} {path : Option THPath}
    (sent : LineWire.sendPacket prim ciphers line toIdentity nonce packet path = .ok .openLine) :
    Stranded toIdentity path := by
  unfold LineWire.sendPacket at sent
  obtain ⟨out, _, sent⟩ := (bind_ok_iff _ _ _).mp sent
  cases chosen : path <|> toIdentity.activePath with
  | some taken =>
      simp only [chosen] at sent
      cases sent
  | none =>
      simp only [chosen] at sent
      refine ⟨chosen, ?_⟩
      cases relay : toIdentity.relay with
      | none => rfl
      | some held => simp [relay, pure_eq_ok] at sent

variable (prim ciphers packet) in
/-- What a complete line does with a packet. -/
theorem sendPacket_completed {toIdentity : THIdentity} {path : Option THPath} {lineId : String}
    {key : Data} (nonce : Data) (named : line.outLineId = some (.string lineId))
    (keyed : encryptorKey line = some key)
    (whole : (dataFromHexString lineId).length = lineIdLength ∨ Stranded toIdentity path) :
    ∃ departure, LineWire.sendPacket prim ciphers line toIdentity nonce packet path =
        .ok departure ∧
      Proper prim ciphers nonce (.departed line packet departure) := by
  obtain ⟨info, stored, encrypts, built⟩ :=
    lineOutPacket_completed prim ciphers packet nonce named keyed
  have framed (whole : (dataFromHexString lineId).length = lineIdLength) :=
    (⟨lineId, info, key, named, whole, stored, encrypts, rfl⟩ :
      Framed prim ciphers line nonce packet _)
  unfold LineWire.sendPacket
  simp only [built, ok_bind]
  cases chosen : path <|> toIdentity.activePath with
  | some taken =>
      rcases whole with whole | stranded
      · exact ⟨_, rfl, _, framed whole, rfl⟩
      · rw [stranded.1] at chosen
        cases chosen
  | none =>
      cases relay : toIdentity.relay with
      | none => exact ⟨_, rfl, lineId, key, named, keyed⟩
      | some held =>
          rcases whole with whole | stranded
          · exact ⟨_, rfl, _, framed whole, rfl⟩
          · rw [stranded.2] at relay
            cases relay

end Line

section Ways
variable {prim ciphers} {switch : THSwitch} {draws : Draws} {packet : THPacket}
  {path : Option THPath}

theorem lineSendPacket_proper_iff (line : LineRef) :
    Proper prim ciphers draws.nonce
        (lineSendPacket prim ciphers switch draws line packet path).2 ↔
      LineReady switch line path := by
  constructor
  · intro proper
    unfold lineSendPacket at proper
    cases sent : LineWire.sendPacket prim ciphers (switch.store.lines line)
        (switch.store.identities (switch.toIdentity line)) draws.nonce packet path with
    | error fault =>
        simp only [sent] at proper
        exact proper.elim
    | ok departure =>
        simp only [sent] at proper
        cases departure with
        | openLine =>
            obtain ⟨lineId, key, named, keyed⟩ := proper
            exact ⟨lineId, key, named, keyed, Or.inr (sendPacket_openLine sent)⟩
        | path taken datagram =>
            obtain ⟨_, framed, _⟩ := proper
            obtain ⟨lineId, key, named, keyed, whole⟩ := framed_completed framed
            exact ⟨lineId, key, named, keyed, Or.inl whole⟩
        | relay lineOutPacket =>
            obtain ⟨_, framed, _⟩ := proper
            obtain ⟨lineId, key, named, keyed, whole⟩ := framed_completed framed
            exact ⟨lineId, key, named, keyed, Or.inl whole⟩
  · rintro ⟨lineId, key, named, keyed, whole⟩
    obtain ⟨departure, sent, proper⟩ :=
      sendPacket_completed prim ciphers packet draws.nonce named keyed whole
    unfold lineSendPacket
    simp only [sent]
    cases departure <;> exact proper

theorem sendPacket_proper_iff (toIdentity : IdentityRef) :
    Proper prim ciphers draws.nonce
        (sendPacket prim ciphers switch draws toIdentity packet path).2 ↔
      IdentityReady prim switch toIdentity path := by
  unfold sendPacket IdentityReady
  cases (switch.store.identities toIdentity).currentLine with
  | some line => exact lineSendPacket_proper_iff line
  | none => cases waits : pending prim switch toIdentity <;> simp [Proper]

theorem openChannel_proper_iff (toIdentity : IdentityRef) :
    Proper prim ciphers draws.nonce
        (openChannel prim ciphers switch draws toIdentity packet).2 ↔
      ChannelReady switch toIdentity := by
  unfold openChannel ChannelReady
  cases (switch.store.identities toIdentity).currentLine with
  | some line => exact lineSendPacket_proper_iff line
  | none => simp [Proper]

variable (prim ciphers switch) in
/-- Each call does what it should exactly if it is ready for its packet. -/
theorem sentProperly_iff (event : Event) :
    SentProperly prim ciphers switch event ↔ Ready prim switch event := by
  have only : ∀ {nonce : Data} {result : Outcome},
      (∀ drawn found, some (nonce, result) = some (drawn, found) →
        Proper prim ciphers drawn found) ↔ Proper prim ciphers nonce result := by
    intro nonce result
    constructor
    · intro every
      exact every nonce result rfl
    · intro proper drawn found same
      cases same
      exact proper
  cases event with
  | line event =>
      constructor
      · intro _
        trivial
      · intro _ nonce result reached
        cases reached
  | sendPacket draws toIdentity packet path => exact only.trans (sendPacket_proper_iff toIdentity)
  | openChannel draws toIdentity firstPacket =>
      exact only.trans (openChannel_proper_iff toIdentity)
  | channelSendPacket draws toIdentity channel packet =>
      simp only [SentProperly, Ready, outcome]
      cases channel.handedOver packet with
      | none => simp
      | some handed =>
          simp only [Option.map_some, Option.isSome_some, forall_const]
          exact only.trans (sendPacket_proper_iff toIdentity)
  | lineSendPacket draws line packet path => exact only.trans (lineSendPacket_proper_iff line)

/-- In every run of a switch, whatever its lines go through, all that is sent
leaves properly exactly if every call is ready for its packet. -/
theorem nothing_sent_unopened_iff (start : THSwitch) (events : List Event) :
    Along (step prim ciphers) (SentProperly prim ciphers) start events ↔
      Along (step prim ciphers) (Ready prim) start events :=
  along_congr (sentProperly_iff prim ciphers) start events

end Ways

/-- A packet that is queued waits in the block of a job of its identity, unless
the call raises. -/
theorem queued_pending {switch after : THSwitch} {draws : Draws} {toIdentity : IdentityRef}
    (packet : THPacket) (path : Option THPath)
    (unlined : (switch.store.identities toIdentity).currentLine = none)
    (opens : Switch.openLine prim switch draws.fresh draws.peerChannel toIdentity = .ok after) :
    pending prim (sendPacket prim ciphers switch draws toIdentity packet path).1 toIdentity =
        true ∨
      (sendPacket prim ciphers switch draws toIdentity packet path).2 = .forgotten := by
  have unusable : ¬ Completions.Usable switch toIdentity := by
    rintro ⟨lined, _⟩
    simp [unlined] at lined
  have jobs := Completions.openLine_jobs unusable opens
  simp only [sendPacket, unlined, reopened, settle, opens]
  cases waits : pending prim switch toIdentity with
  | true => exact Or.inr rfl
  | false =>
      rw [waits] at jobs
      refine Or.inl (List.any_eq_true.mpr ⟨⟨switch.nextJob, toIdentity⟩, ?_, ?_⟩)
      · rw [jobs.1]
        exact List.mem_append_right _ (List.mem_singleton.mpr rfl)
      · simp [samePeer]

/-! ## Lines before and after they are opened -/

section Lines
variable {prim ciphers} {line : THLine}

/-- Without a key a 2a line sends its bare line id, and a 3a line reads through
a null pointer. -/
theorem lineOutPacket_keyless (nonce : Data) (packet : THPacket)
    (keyless : encryptorKey line = none) :
    lineOutPacket prim ciphers line nonce packet =
      if line.cipherSetInfo.map csidOf = some .cs3a then .error .nullPointer
      else do
        let outLineId ← readText line.outLineId
        return lineOut ((outLineId.map dataFromHexString).getD []) := by
  cases stored : line.cipherSetInfo with
  | none => simp [lineOutPacket, stored, lineOut]
  | some info =>
      rw [encryptorKey, stored, Option.bind_some] at keyless
      cases info with
      | info2a info =>
          have held : info.encryptorKey = none := keyless
          simp [lineOutPacket, stored, encryptLinePacket, held, csidOf, lineOut]
      | info3a info =>
          have held : info.encryptorKey = none := keyless
          simp [lineOutPacket, stored, encryptLinePacket, held, csidOf]

/-- Between two acquainted switches every registered line is ready for what is
sent on it, if the other end has named itself with a whole line id. -/
theorem registered_line_ready {generated : KeyPair → Prop} {csid : CipherSetId}
    {peer : TwoSided.Side → IdentityRef} {start : LineKeys.Pair}
    (acquainted : Acquainted prim csid peer start)
    (events : List (TwoSided.Action LineKeys.Event))
    (possible : Along (TwoSided.act (LineKeys.step prim)) (LineKeys.Possible prim generated peer)
      start events) (side : TwoSided.Side) {registered : String} {ref : LineRef}
    (found : (run (TwoSided.act (LineKeys.step prim)) start events side).openLines.lookup
      registered = some ref)
    (whole : ∀ lineId, ((run (TwoSided.act (LineKeys.step prim)) start events side).store.lines
      ref).outLineId = some (.string lineId) → (dataFromHexString lineId).length = lineIdLength)
    (path : Option THPath) :
    LineReady (run (TwoSided.act (LineKeys.step prim)) start events side) ref path := by
  have sound := bothSound_run acquainted events possible side
  obtain ⟨_, _, final⟩ := sound.registered registered ref found
  obtain ⟨_, _, lineId, _, _, _, _, named, _, _, keyed⟩ := final (by simp)
  exact ⟨lineId, _, named, keyed, Or.inl (whole lineId named)⟩

end Lines

set_option maxRecDepth 20000 in
/-- After the handshake the line can send without a path of its own. -/
theorem registered_line_ready_handshake :
    LineReady (run (TwoSided.act (LineKeys.step handshakePrimitives)) startOf handshake .near) 0
      none := by
  have found : (run (TwoSided.act (LineKeys.step handshakePrimitives)) startOf handshake
      .near).openLines.lookup (lineIdFor .near) = some 0 := rfl
  apply registered_line_ready handshake_acquainted handshake handshake_possible .near found
  intro lineId named
  have same : ((run (TwoSided.act (LineKeys.step handshakePrimitives)) startOf handshake
      .near).store.lines 0).outLineId = some (.string (lineIdFor .far)) := rfl
  rw [same] at named
  cases named
  decide

/-! A 2a line is there as soon as its open is on the way. -/

def hastySwitch : THSwitch where
  store := Store.start.cacheIdentity "0b"
    { THIdentity.init with
      cipherParts := .single "2a" ⟨.cs2a, farKey, none⟩
      availablePaths := [LineKeys.path] }
  hashname := "0a"
  cipherParts := .single "2a" ⟨.cs2a, nearKey, some nearKey⟩
  openLines := .empty
  pendingJobs := []
  nextJob := 0
  cachedOpen _ := none
  sent := []

def hastyPacket : THPacket := ⟨some channelFour, some [7, 8, 9], 0, none⟩

/-- The line is opened, and a packet follows at once. -/
def hastySending : List Event :=
  [.line (.openLine (freshFor .near) none 0),
    .sendPacket ⟨spare, none, nonceOnes⟩ 0 hastyPacket (some LineKeys.path)]

set_option maxRecDepth 20000 in
/-- The packet is neither sealed nor queued. -/
theorem hasty_packet_unsealed : ¬ ∀ events,
    Along (step addingPrimitives taggingCiphers) (SentProperly addingPrimitives taggingCiphers)
      hastySwitch events := by
  intro every
  obtain ⟨_, sent, _⟩ := every hastySending
  have ready := (sentProperly_iff addingPrimitives taggingCiphers _ _).mp sent
  have unnamed : ((step addingPrimitives taggingCiphers hastySwitch
      (.line (.openLine (freshFor .near) none 0))).store.lines 0).outLineId = none := by
    rfl
  obtain ⟨lineId, _, named, _⟩ :
    LineReady (step addingPrimitives taggingCiphers hastySwitch
      (.line (.openLine (freshFor .near) none 0))) 0 (some LineKeys.path) := ready
  rw [unnamed] at named
  cases named

end Telehash.LineSending
