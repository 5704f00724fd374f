import Telehash.ChannelIds
import Telehash.LineKeys
import Telehash.LineWire
import Telehash.SwitchSound

/-!
What two acquainted switches send each other on their lines. The id of every line is
one that was drawn for it, so a line packet names one line of the other end; the keys
of lines that name each other agree; so what is sent on a line arrives.
-/

namespace Telehash.SecureLine
open Association Foundation Packet PacketCodec Identity CipherSet HexString Switch LineInfo
open LineEnd LineKeys LineWire Runs TwoSided

/-! ## Where line ids come from -/

/-- The ids of the lines of a store are among the given ones. -/
def NamedFrom (names : String → Prop) (store : Store) : Prop :=
  ∀ line < store.nextLine, ∀ lineId, (store.lines line).inLineId = some lineId → names lineId

section Naming
variable {prim : Primitives} {names : String → Prop} {switch after : THSwitch} {fresh : Fresh}

theorem namedFrom_updateLine {store : Store} (named : NamedFrom names store) (line : LineRef)
    {change : THLine → THLine}
    (kept : ∀ lineId, (change (store.lines line)).inLineId = some lineId →
      (store.lines line).inLineId = some lineId ∨ names lineId) :
    NamedFrom names (store.updateLine line change) := by
  refine forall_updateLine store (fun ref line => ref < store.nextLine →
    ∀ lineId, line.inLineId = some lineId → names lineId) ?_ (fun ref _ => named ref)
  intro inside lineId held
  rcases kept lineId held with before | new
  · exact named line inside lineId before
  · exact new

theorem namedFrom_allocLine {store : Store} (named : NamedFrom names store) {line : THLine}
    (unnamed : line.inLineId = none) : NamedFrom names (store.allocLine line) := by
  refine forall_allocLine store (fun _ line => ∀ lineId, line.inLineId = some lineId →
    names lineId) ?_ named
  intro lineId held
  rw [unnamed] at held
  cases held

theorem namedFrom_identityFromParts {store looked : Store} {sha256 : Data → Data}
    {parts : Option Parts} {cipherSet : THCipherSet} {found : Option IdentityRef}
    (named : NamedFrom names store)
    (looking : identityFromParts sha256 parts cipherSet store = (looked, found)) :
    NamedFrom names looked := by
  unfold identityFromParts at looking
  split at looking
  · split at looking <;> cases looking <;> exact named
  · cases looking
    exact named

theorem namedFrom_takeLine {store taken : Store} {opened : Opened} {lineKeys : KeyPair}
    {sender : IdentityRef} {lineId : Option Json} {time : Nat} {line : Option LineRef}
    (named : NamedFrom names store)
    (taking : takeLine opened lineKeys sender lineId time store = .ok (taken, line)) :
    NamedFrom names taken := by
  unfold takeLine at taking
  split at taking
  · obtain ⟨info, _, same⟩ := (bind_ok_iff _ _ _).mp taking
    cases same
    exact namedFrom_updateLine named _ fun lineId held => Or.inl held
  · cases taking
    exact namedFrom_allocLine named rfl

theorem namedFrom_takeOpen {store taken : Store} {opened : Opened} {lineKeys : KeyPair}
    {sender : IdentityRef} {line : Option LineRef} (named : NamedFrom names store)
    (taking : takeOpen opened lineKeys sender store = .ok (taken, line)) :
    NamedFrom names taken := by
  unfold takeOpen at taking
  obtain ⟨authentic, _, taking⟩ := (bind_ok_iff _ _ _).mp taking
  split at taking
  · cases taking
    exact named
  · obtain ⟨time, _, taking⟩ := (bind_ok_iff _ _ _).mp taking
    split at taking
    · cases taking
      exact named
    · obtain ⟨lineId, _, taking⟩ := (bind_ok_iff _ _ _).mp taking
      split at taking
      · cases taking
        exact named
      · split at taking
        · have emptied : NamedFrom names (closeChannels sender store) := named
          exact namedFrom_takeLine emptied taking
        · exact namedFrom_takeLine named taking

theorem namedFrom_acceptOpen {store taken : Store} {opened : Opened} {lineKeys : KeyPair}
    {line : Option LineRef} (named : NamedFrom names store)
    (accepting : acceptOpen prim opened lineKeys store = .ok (taken, line)) :
    NamedFrom names taken := by
  unfold acceptOpen at accepting
  obtain ⟨parts, _, accepting⟩ := (bind_ok_iff _ _ _).mp accepting
  split at accepting
  · rename_i looked looking
    cases accepting
    exact namedFrom_identityFromParts named looking
  · rename_i looked sender looking
    have known := namedFrom_identityFromParts named looking
    have keyed : NamedFrom names (looked.updateIdentity sender fun identity =>
        identity.addCipherSet prim.sha256 opened.incomingCS) := known
    exact namedFrom_takeOpen keyed accepting

/-- An open names its line once, by the id that is drawn. -/
theorem namedFrom_generateOpen {line : LineRef} {opened : Option Opened}
    (named : NamedFrom names switch.store) (drawn : names fresh.lineId)
    (generating : generateOpen prim switch fresh line = .ok (after, opened)) :
    NamedFrom names after.store := by
  unfold generateOpen at generating
  dsimp only at generating
  split at generating
  · cases generating
    exact named
  · obtain ⟨_, _, generating⟩ := (bind_ok_iff _ _ _).mp generating
    cases generating
    refine namedFrom_updateLine named line fun lineId held => ?_
    cases known : (switch.store.lines line).inLineId with
    | some old =>
        rw [known] at held
        exact Or.inl held
    | none =>
        rw [known] at held
        cases held
        exact Or.inr drawn

theorem namedFrom_sendOpen {line : LineRef} (named : NamedFrom names switch.store)
    (drawn : names fresh.lineId) (sending : sendOpen prim switch fresh line = .ok after) :
    NamedFrom names after.store := by
  unfold sendOpen at sending
  split at sending
  · cases sending
    rwa [store_transmit]
  · obtain ⟨⟨generated, opened⟩, generating, sending⟩ := (bind_ok_iff _ _ _).mp sending
    have built := namedFrom_generateOpen named drawn generating
    cases opened with
    | none =>
        cases sending
        exact built
    | some opened =>
        cases sending
        rw [store_transmit]
        exact built

theorem namedFrom_openAndRegister {lineKeys : KeyPair} {line : LineRef}
    (named : NamedFrom names switch.store)
    (registering : openAndRegister prim switch lineKeys line = .ok after) :
    NamedFrom names after.store := by
  obtain ⟨_, done, next, _, finalized, rfl⟩ := SwitchSound.openAndRegister_cases registering
  refine namedFrom_updateLine named line fun lineId held => Or.inl ?_
  have same := congrArg THLine.inLineId (ChannelIds.finalizeLineKeys_unkeyed prim finalized)
  exact same.symm.trans held

theorem namedFrom_forgetLine (named : NamedFrom names switch.store) (line : LineRef) :
    NamedFrom names (forgetLine switch line).store := by
  rw [store_forgetLine]
  exact named

theorem namedFrom_completeOpen {returnPath : Option THPath} {line : LineRef}
    (named : NamedFrom names switch.store) (drawn : names fresh.lineId)
    (completing : completeOpen prim switch fresh returnPath line = .ok after) :
    NamedFrom names after.store := by
  have pathed : NamedFrom names (switch.updateStore fun store =>
      store.updateIdentity (switch.toIdentity line) (usePath returnPath)).store := named
  have cleared := namedFrom_forgetLine pathed line
  unfold completeOpen at completing
  dsimp only at completing
  split at completing
  · split at completing
    · cases completing
    · refine namedFrom_openAndRegister ?_ completing
      exact cleared
  · obtain ⟨answered, sending, registering⟩ := (bind_ok_iff _ _ _).mp completing
    refine namedFrom_openAndRegister (namedFrom_sendOpen ?_ drawn sending) registering
    exact cleared

theorem namedFrom_processOpen {packet : THPacket} (named : NamedFrom names switch.store)
    (drawn : names fresh.lineId) (processed : processOpen prim switch fresh packet = .ok after) :
    NamedFrom names after.store := by
  rcases SwitchSound.processOpen_cases processed with rfl | ⟨own, opened, _, _, received⟩
  · exact named
  · obtain ⟨⟨store, line⟩, accepting, received⟩ := (bind_ok_iff _ _ _).mp received
    have taken := namedFrom_acceptOpen named accepting
    cases line with
    | none =>
        cases received
        exact taken
    | some newLine =>
        have switched : NamedFrom names { switch with store := store }.store := taken
        exact namedFrom_completeOpen switched drawn received

theorem namedFrom_openLine {peerChannel : Option ChannelRef} {toIdentity : IdentityRef}
    (named : NamedFrom names switch.store) (drawn : names fresh.lineId)
    (opening : openLine prim switch fresh peerChannel toIdentity = .ok after) :
    NamedFrom names after.store := by
  have tried : ∀ {opened : THSwitch}, NamedFrom names opened.store →
      NamedFrom names (tryVias opened toIdentity peerChannel).store := by
    intro opened kept
    unfold tryVias
    dsimp only
    split <;> exact kept
  rcases SwitchSound.openLine_cases opening with rfl | ⟨jobs, next, opened, opens, rfl⟩
  · exact named
  · rcases opens with rfl | sending
    · exact tried named
    · refine tried (namedFrom_sendOpen ?_ drawn sending)
      unfold withCurrentLine
      split
      · exact named
      · exact namedFrom_allocLine named rfl

theorem namedFrom_step (event : LineKeys.Event) (named : NamedFrom names switch.store)
    (drawn : match event with
      | .openLine fresh _ _ | .processOpen fresh _ | .pingLine fresh _ => names fresh.lineId
      | .closeLine _ | .lineTimeout _ _ => True) :
    NamedFrom names (LineKeys.step prim switch event).store := by
  have settles : ∀ {result : Except Fault THSwitch},
      (∀ after, result = .ok after → NamedFrom names after.store) →
      NamedFrom names (settle switch result).store := by
    intro result finished
    cases result with
    | ok after => exact finished after rfl
    | error fault => exact named
  cases event with
  | openLine fresh peerChannel toIdentity =>
      exact settles fun after opening => namedFrom_openLine named drawn opening
  | processOpen fresh packet =>
      exact settles fun after processed => namedFrom_processOpen named drawn processed
  | pingLine fresh line => exact settles fun after sending => namedFrom_sendOpen named drawn sending
  | closeLine line =>
      have uncached : NamedFrom names { switch with
          cachedOpen := Function.update switch.cachedOpen line none }.store := named
      have forgotten := namedFrom_forgetLine uncached line
      simp only [LineKeys.step, Switch.closeLine]
      split <;> exact forgotten
  | lineTimeout job toIdentity =>
      simp only [LineKeys.step, Switch.lineTimeout]
      split <;> exact named

end Naming

/-! ## What is sent on a line -/

/-- A line id is drawn as 16 bytes and kept as their digits. -/
def DrawnId (lineId : String) : Prop :=
  ∃ bytes : Data, bytes.length = lineIdLength ∧ lineId = hexString bytes

/-- The ids that the event may draw are ids of 16 bytes. -/
def DrawsIds (_ : Pair) (action : Action LineKeys.Event) : Prop :=
  match action.event with
  | .openLine fresh _ _ | .processOpen fresh _ | .pingLine fresh _ => DrawnId fresh.lineId
  | .closeLine _ | .lineTimeout _ _ => True

section Sending
variable {prim : Primitives} {ciphers : LineCiphers} {generated : KeyPair → Prop}
  {csid : CipherSetId} {peer : Side → IdentityRef} {start : Pair}

variable (prim) in
theorem bothNamed_run (unlined : ∀ side, (start side).store.nextLine = 0)
    (events : List (Action LineKeys.Event))
    (drawn : Along (act (LineKeys.step prim)) DrawsIds start events) (side : Side) :
    NamedFrom DrawnId (run (act (LineKeys.step prim)) start events side).store := by
  have kept : ∀ pair action, DrawsIds pair action →
      (∀ which, NamedFrom DrawnId (pair which).store) →
      ∀ which, NamedFrom DrawnId (act (LineKeys.step prim) pair action which).store := by
    intro pair action draws named which
    rcases side_cases action.side which with rfl | rfl
    · rw [act_same]
      exact namedFrom_step action.event (named _) draws
    · rw [act_other]
      exact named _
  have begin_ : ∀ which, NamedFrom DrawnId (start which).store := by
    intro which line inside
    rw [unlined which] at inside
    exact absurd inside (Nat.not_lt_zero line)
  exact run_invariant kept start events begin_ drawn side

/-- A line on each end, both registered, that name each other. -/
structure Facing (pair : Pair) (side : Side) (mine theirs : LineRef) : Prop where
  registered : ∃ lineId, (pair side).openLines.lookup lineId = some mine
  registeredThere : ∃ lineId, (pair side.other).openLines.lookup lineId = some theirs
  names : ((pair side).store.lines mine).outLineId =
    ((pair side.other).store.lines theirs).inLineId.map .string
  named : ((pair side.other).store.lines theirs).outLineId =
    ((pair side).store.lines mine).inLineId.map .string

theorem facing_joined {parts : Side → CipherParts} {pair : Pair} {side : Side}
    {mine theirs : LineRef} (sound : BothSound prim generated csid peer parts pair)
    (named : NamedFrom DrawnId (pair side.other).store) (agree : KeysAgree pair)
    (facing : Facing pair side mine theirs) :
    ∃ lineId key, Joined ((pair side).store.lines mine) (pair side.other) theirs lineId key ∧
      ∀ info, ((pair side).store.lines mine).cipherSetInfo = some info → csidOf info = csid := by
  obtain ⟨mineId, found⟩ := facing.registered
  obtain ⟨lineId, foundThere⟩ := facing.registeredThere
  obtain ⟨inside, _, _⟩ := (sound side).registered mineId mine found
  obtain ⟨insideThere, inward, _⟩ := (sound side.other).registered lineId theirs foundThere
  obtain ⟨info, held, class_, _⟩ := (sound side).equipped mine inside (by simp)
  obtain ⟨infoThere, heldThere, classThere, _⟩ :=
    (sound side.other).equipped theirs insideThere (by simp)
  obtain ⟨key, encrypts, decrypts⟩ :=
    agree side mineId mine lineId theirs found foundThere facing.names facing.named
  obtain ⟨bytes, sixteen, digits⟩ := named theirs insideThere lineId inward
  refine ⟨lineId, key, ?_, ?_⟩
  · constructor
    case out => rw [facing.names, inward, Option.map_some]
    case inward => exact inward
    case digits => exact digits ▸ lowerCaseHex_hexString bytes
    case size => rw [digits, length_hexString, sixteen]; rfl
    case class_ =>
      rw [held, heldThere]
      exact congrArg some (class_.trans classThere.symm)
    case encrypts => exact encrypts
    case decrypts => exact decrypts
    case registered => exact foundThere
  · intro other same
    rw [held] at same
    cases same
    exact class_

/-- In every state two acquainted switches reach, a packet sent on a registered line
arrives at the line of the other end it faces, and at no other, as it was sent, unless
it carries a longer JSON length from an earlier reading. -/
theorem facing_lines_deliver (exchange : KeyExchange prim generated csid) (ideal : Ideal ciphers)
    (acquainted : Acquainted prim csid peer start) (events : List (Action LineKeys.Event))
    (possible : Along (act (LineKeys.step prim)) (Possible prim generated peer) start events)
    (drawn : Along (act (LineKeys.step prim)) DrawsIds start events) {side : Side}
    {mine theirs : LineRef}
    (facing : Facing (run (act (LineKeys.step prim)) start events) side mine theirs)
    {nonce : Data} {packet : THPacket} {json : JsonDictionary}
    (fresh : nonce.length = nonceLength csid) (built : packet.json = some json)
    (filled : json.count ≠ 0) (written : Written prim.serialization json)
    (short : packet.jsonLength < 65536) :
    ArrivesAsSent prim ciphers
        ((run (act (LineKeys.step prim)) start events side).store.lines mine)
        (run (act (LineKeys.step prim)) start events side.other) theirs nonce packet ↔
      packet.jsonLength ≤ (prim.serialization.dataWithJSONObject json).length := by
  have sound := bothSound_run acquainted events possible
  have named := bothNamed_run prim acquainted.noLines events drawn side.other
  obtain ⟨lineId, key, joined, class_⟩ :=
    facing_joined sound named (keysAgree_sound exchange sound) facing
  rw [arrives_iff_read ideal joined fun info held => by rw [class_ info held, fresh]]
  exact reads_back_iff prim.serialization prim.stack built filled written short

end Sending

/-! ## A packet behind a handshake -/

def talkingPrimitives : Primitives :=
  { handshakePrimitives with
    serialization :=
      { dataWithJSONObject := fun _ => channelFourText
        JSONObjectWithData := fun text =>
          if text = channelFourText then some (.dictionary channelFour)
          else handshakePrimitives.serialization.JSONObjectWithData text } }

theorem talking_exchange :
    KeyExchange talkingPrimitives (fun keys => keys.publicKey = keys.secretKey) .cs3a :=
  ⟨handshake_exchange.received, handshake_exchange.agrees⟩

theorem talking_acquainted : Acquainted talkingPrimitives .cs3a (fun _ => 0) startOf where
  known := handshake_acquainted.known
  uses := handshake_acquainted.uses
  unlined := handshake_acquainted.unlined
  noLines := handshake_acquainted.noLines
  noneOpen := handshake_acquainted.noneOpen
  nonePending := handshake_acquainted.nonePending
  noneCached := handshake_acquainted.noneCached
  noneSent := handshake_acquainted.noneSent

set_option maxRecDepth 20000 in
theorem talking_genuine (side : Side) (switch : THSwitch)
    (parts : switch.cipherParts = partsFor side)
    (opens : List Opened) (member : sentFrom side.other ∈ opens) :
    Genuine talkingPrimitives opens switch (openPacketFrom side.other) := by
  intro id own opened found read
  have only : own = keysFor side := by
    have entry := (lookup_some_iff _ _ _).mp found
    rw [parts] at entry
    exact congrArg Prod.snd (List.mem_singleton.mp entry)
  have opens : openWith talkingPrimitives (keysFor side) (openPacketFrom side.other) =
      .ok (some { sentFrom side.other with
        inner :=
          ⟨some (jsonFrom side.other), some (keysFor side.other).publicKey, 2,
            some LineKeys.path⟩ }) := by
    cases side <;> rfl
  rw [only, opens] at read
  cases read
  exact ⟨_, member, rfl, rfl, rfl⟩

set_option maxRecDepth 20000 in
theorem talking_possible :
    Along (act (LineKeys.step talkingPrimitives))
      (Possible talkingPrimitives (fun keys => keys.publicKey = keys.secretKey) fun _ => 0)
      startOf handshake := by
  refine ⟨⟨⟨rfl, fun line inside => nomatch inside⟩, rfl⟩,
    ⟨⟨rfl, fun line inside => nomatch inside⟩, ?_⟩, ⟨⟨rfl, ?_⟩, ?_⟩, trivial⟩
  · exact talking_genuine .far _ rfl _ (List.mem_singleton.mpr rfl)
  · intro line inside
    have first : line = 0 := Nat.lt_one_iff.mp inside
    subst first
    exact fun same => absurd (Option.some.inj same) (by decide)
  · exact talking_genuine .near _ rfl _ (List.mem_singleton.mpr rfl)

theorem talking_drawn :
    Along (act (LineKeys.step talkingPrimitives)) DrawsIds startOf handshake :=
  ⟨⟨List.replicate 16 0x0a, rfl, by decide⟩, ⟨List.replicate 16 0x0b, rfl, by decide⟩,
    ⟨List.replicate 16 0x0c, rfl, by decide⟩, trivial⟩

set_option maxRecDepth 20000 in
theorem talking_facing : Facing (run (act (LineKeys.step talkingPrimitives)) startOf handshake)
    .near 0 0 where
  registered := ⟨lineIdFor .near, rfl⟩
  registeredThere := ⟨lineIdFor .far, rfl⟩
  names := rfl
  named := rfl

/-- After a handshake a packet reaches the far end, with what it says. -/
theorem facing_lines_deliver_four : ArrivesAsSent talkingPrimitives taggingCiphers
    ((run (act (LineKeys.step talkingPrimitives)) startOf handshake .near).store.lines 0)
    (run (act (LineKeys.step talkingPrimitives)) startOf handshake .far) 0 nonceOnes
    ⟨some channelFour, some [7, 8, 9], 0, none⟩ :=
  (facing_lines_deliver talking_exchange tagging_ideal talking_acquainted handshake
    talking_possible talking_drawn talking_facing rfl rfl (by decide) ⟨by decide, rfl⟩
    (by decide)).mpr (by decide)

end Telehash.SecureLine
