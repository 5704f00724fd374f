import Telehash.SecureLine

/-!
The handshake of two acquainted switches. Opens are sent, answered, crossed, repeated,
lost and held up in any order. As long as no line is closed each end keeps to one line,
and once each end has been given an open of the other the two lines face each other.
-/

namespace Telehash.Handshake
open Association Foundation Packet Identity CipherSet Switch LineInfo LineEnd LineKeys Runs TwoSided
open SecureLine (Facing)
open SwitchSound (ownSet)

/-! ## One end that closes nothing -/

def Timed (opened : Opened) : Prop :=
  ∃ time, readNumber (opened.inner.objectForKey "at") = .ok time

def Registered (switch : THSwitch) : Prop :=
  ∃ lineId, switch.openLines.lookup lineId = some 0

/-- The other end has named the line. -/
def Told (line : THLine) : Prop :=
  ∃ lineId, line.outLineId = some (.string lineId)

/-- One line at most, to the peer, with an id. Before it is registered nothing was heard
on it. -/
structure OneLine (peer : IdentityRef) (switch : THSwitch) : Prop where
  few : switch.store.nextLine ≤ 1
  current : 0 < switch.store.nextLine →
    (switch.store.identities peer).currentLine = some 0
  named : 0 < switch.store.nextLine → (switch.store.lines 0).inLineId.isSome
  unheard : 0 < switch.store.nextLine → ¬ Registered switch →
    (switch.store.lines 0).outLineId = none ∧ (switch.store.lines 0).createdAt = 0
  timed : ∀ opened ∈ switch.sent, Timed opened
  timedCached : ∀ line opened, switch.cachedOpen line = some opened → Timed opened

section Operations
variable {prim : Primitives} {generated : KeyPair → Prop} {setting : Setting}
  {switch after : THSwitch} {fresh : Fresh}

/-! ## Sending an open -/

/-- What sending an open leaves of everything but the own half of the line. -/
structure Sends (switch after : THSwitch) (line : LineRef) : Prop where
  next : after.store.nextLine = switch.store.nextLine
  identities : after.store.identities = switch.store.identities
  openLines : after.openLines = switch.openLines
  named : (after.store.lines line).inLineId.isSome
  out : (after.store.lines line).outLineId = (switch.store.lines line).outLineId
  created : (after.store.lines line).createdAt = (switch.store.lines line).createdAt
  timed : (∀ opened ∈ switch.sent, Timed opened) → ∀ opened ∈ after.sent, Timed opened
  timedCached : (∀ line opened, switch.cachedOpen line = some opened → Timed opened) →
    ∀ line opened, after.cachedOpen line = some opened → Timed opened

theorem sent_transmit (switch : THSwitch) (line : LineRef) (opened : Opened) :
    ∀ sent ∈ (transmit switch line opened).sent, sent ∈ switch.sent ∨ sent = opened := by
  intro sent member
  unfold transmit at member
  dsimp only at member
  split at member
  · rcases List.mem_append.mp member with old | new
    · exact Or.inl old
    · exact Or.inr (List.mem_singleton.mp new)
  · exact Or.inl member

theorem timed_openFor (own : THCipherSet) (cipherParts : CipherParts) (recipient lineId : String)
    (time : Nat) (publicLineKey : Data) :
    Timed (openFor prim own cipherParts recipient lineId time publicLineKey) := by
  refine ⟨(Json.number time).unsignedIntegerValue, ?_⟩
  simp [openFor, openJson, THPacket.objectForKey, lookup_insert, readNumber]

theorem withLineKeys_places {csid : CipherSetId} {info : THCipherSetLineInfo}
    (class_ : csidOf info = csid) (lineKeys : KeyPair) :
    ∃ placed keys, withLineKeys csid lineKeys info = .ok (placed, keys) := by
  subst class_
  cases info with
  | info2a info => exact ⟨_, _, rfl⟩
  | info3a info => exact ⟨_, _, rfl⟩

/-- The open of a line to the peer is generated. -/
theorem generateOpen_generates {bare : Option LineRef} {line : LineRef}
    (sound : Sound prim generated setting bare none switch)
    (inside : line < switch.store.nextLine) (drawn : Drawn generated switch fresh)
    (only : bare = none ∨ (bare = some line ∧ (switch.store.lines line).cipherSetInfo = none)) :
    ∃ info lineId opened, Timed opened ∧ generateOpen prim switch fresh line =
      .ok (switch.updateStore fun store => store.updateLine line fun held =>
        { held with cipherSetInfo := some info, inLineId := some lineId }, some opened) := by
  have ready : (switch.store.lines line).cipherSetInfo = none ∨
      Equipped generated setting.csid (switch.store.lines line) := by
    rcases only with rfl | ⟨_, blank⟩
    · exact Or.inr (sound.equipped line inside (by simp))
    · exact Or.inl blank
  have owner : (switch.store.lines line).toIdentity = setting.peer := sound.owned line inside
  obtain ⟨own, chosen, class_⟩ := chooses sound.uses
  obtain ⟨remote, found, remoteClass⟩ := sound.uses.known
  obtain ⟨startedClass, _⟩ := started_ok generated remoteClass drawn.keys ready rfl
  obtain ⟨placed, keys, places⟩ := withLineKeys_places startedClass fresh.lineKeys
  have timed : Timed (openFor prim own setting.own
      ((switch.store.identities setting.peer).hashname prim.sha256)
      ((switch.store.lines line).inLineId.getD fresh.lineId) fresh.time keys.publicKey) :=
    timed_openFor own setting.own _ _ fresh.time keys.publicKey
  refine ⟨placed, (switch.store.lines line).inLineId.getD fresh.lineId, _, timed, ?_⟩
  unfold generateOpen
  simp only [owner, sound.ownParts, chosen, class_, found, places, ok_bind, pure_eq_ok]

theorem sends_transmit {middle : THSwitch} {line : LineRef} {opened : Opened}
    (sends : Sends switch middle line) (timed : Timed opened) :
    Sends switch (transmit middle line opened) line := by
  obtain ⟨sent, same⟩ := SwitchSound.transmit_sent middle line opened
  have more := sent_transmit middle line opened
  rw [same] at more ⊢
  refine { sends with timed := ?_ }
  intro before other member
  rcases more other member with old | rfl
  · exact sends.timed before other old
  · exact timed

/-- An open can be sent on every line to the peer. -/
theorem sendOpen_sends {bare : Option LineRef} {line : LineRef}
    (sound : Sound prim generated setting bare none switch)
    (inside : line < switch.store.nextLine) (drawn : Drawn generated switch fresh)
    (only : bare = none ∨ (bare = some line ∧ (switch.store.lines line).cipherSetInfo = none))
    (timed : ∀ line opened, switch.cachedOpen line = some opened → Timed opened) :
    ∃ after, sendOpen prim switch fresh line = .ok after ∧ Sends switch after line := by
  cases cached : switch.cachedOpen line with
  | some opened =>
      obtain ⟨_, ⟨_, lineId, _, named, _⟩, _⟩ := sound.cached line opened cached
      refine ⟨transmit switch line opened, by rw [sendOpen, cached], ?_⟩
      have kept : Sends switch switch line :=
        ⟨rfl, rfl, rfl, by rw [named]; rfl, rfl, rfl, id, id⟩
      exact sends_transmit kept (timed line opened cached)
  | none =>
      obtain ⟨info, lineId, opened, timed, generates⟩ :=
        generateOpen_generates sound inside drawn only
      refine ⟨_, by rw [sendOpen, cached]; dsimp only; rw [generates]; rfl, ?_⟩
      refine sends_transmit ⟨rfl, rfl, rfl, ?_, ?_, ?_, id, ?_⟩ timed
      · simp [THSwitch.updateStore]
      · simp [THSwitch.updateStore]
      · simp [THSwitch.updateStore]
      · intro before ref other held
        have held : Function.update switch.cachedOpen line (some opened) ref = some other := held
        by_cases same : ref = line
        · subst same
          rw [Function.update_self] at held
          cases held
          exact timed
        · rw [Function.update_of_ne same] at held
          exact before ref other held

/-! ## Registering a line -/

/-- Once the remote half of a line is there its keys can be finalized. -/
theorem finalizeLineKeys_finalizes {csid : CipherSetId} {line : THLine} {remote : Data}
    (equipped : Equipped generated csid line) (told : remoteKey line = some remote)
    (out : Told line) (named : line.inLineId.isSome) (lineKeys : KeyPair) :
    ∃ done, finalizeLineKeys prim lineKeys line = .ok done := by
  obtain ⟨info, stored, rfl, cipherSet, _⟩ := equipped
  obtain ⟨outId, out⟩ := out
  obtain ⟨inId, named⟩ := Option.isSome_iff_exists.mp named
  unfold finalizeLineKeys
  rw [stored]
  cases info with
  | info2a info =>
      obtain ⟨known, set, class_⟩ := Option.map_eq_some_iff.mp cipherSet
      have remoteStored : info.remoteECCKey = some remote := by
        simpa [remoteKey, stored, remoteKeyOf] using told
      have set : info.cipherSet = some known := set
      have class_ : known.csid = .cs2a := class_
      simp only [set, class_, ↓reduceIte, finalize2a, remoteStored, out, named, lineIdBytes,
        readText, Option.map_some, ok_bind, pure_eq_ok]
      exact ⟨_, rfl⟩
  | info3a info =>
      obtain ⟨known, set, class_⟩ := Option.map_eq_some_iff.mp cipherSet
      have remoteStored : info.remoteLineKey = some remote := by
        simpa [remoteKey, stored, remoteKeyOf] using told
      have set : info.cipherSet = some known := set
      have class_ : known.csid = .cs3a := class_
      simp only [set, class_, ↓reduceIte, finalize3a, remoteStored, out, named, lineIdBytes,
        readText, Option.map_some, ok_bind, pure_eq_ok]
      exact ⟨_, rfl⟩

/-- What registering the line leaves. -/
structure Registers (switch after : THSwitch) : Prop where
  next : after.store.nextLine = switch.store.nextLine
  identities : after.store.identities = switch.store.identities
  sent : after.sent = switch.sent
  cachedOpen : after.cachedOpen = switch.cachedOpen
  named : (after.store.lines 0).inLineId.isSome
  registered : Registered after

theorem openAndRegister_registers {lineKeys : KeyPair}
    (registering : openAndRegister prim switch lineKeys 0 = .ok after) :
    Registers switch after := by
  obtain ⟨lineId, done, next, named, finalized, rfl⟩ :=
    SwitchSound.openAndRegister_cases registering
  have unkeyed := congrArg THLine.inLineId (ChannelIds.finalizeLineKeys_unkeyed prim finalized)
  have same : done.inLineId = (switch.store.lines 0).inLineId := unkeyed
  refine ⟨rfl, rfl, rfl, rfl, ?_, ⟨lineId, lookup_insert_same _ _ _⟩⟩
  simp [THSwitch.updateStore, same, named]

theorem openAndRegister_ready {remote : Data}
    (equipped : Equipped generated setting.csid (switch.store.lines 0))
    (told : remoteKey (switch.store.lines 0) = some remote)
    (out : Told (switch.store.lines 0))
    (named : (switch.store.lines 0).inLineId.isSome) (lineKeys : KeyPair) :
    ∃ after, openAndRegister prim switch lineKeys 0 = .ok after := by
  have numbered : ∀ next, ∃ done, finalizeLineKeys prim lineKeys
      { switch.store.lines 0 with nextChannelId := next } = .ok done := by
    intro next
    have equippedNext : Equipped generated setting.csid
        { switch.store.lines 0 with nextChannelId := next } := equipped
    exact finalizeLineKeys_finalizes equippedNext told out named lineKeys
  obtain ⟨lineId, held⟩ := Option.isSome_iff_exists.mp named
  unfold openAndRegister
  obtain ⟨done, finalized⟩ := numbered (if (switch.store.identities
    (switch.store.lines 0).toIdentity).hashname prim.sha256 < switch.hashname then 1 else 2)
  dsimp only
  rw [finalized, ok_bind, held]
  exact ⟨_, rfl⟩

/-! ## Taking an open -/

variable (prim) in
/-- The packet is one of the opens to the set that reads it. -/
def Brings (opens : List Opened) (switch : THSwitch) (packet : THPacket) : Prop :=
  ∃ own opened sent, ownSet switch packet = some own ∧
    openWith prim own packet = .ok (some opened) ∧ opened.authentic = .ok true ∧
    sent ∈ opens ∧ SameOpen opened sent

theorem processOpen_reads {packet : THPacket} {own : THCipherSet} {opened : Opened}
    (held : ownSet switch packet = some own) (read : openWith prim own packet = .ok (some opened)) :
    Switch.processOpen prim switch fresh packet =
      receiveOpen prim switch fresh packet.returnPath opened := by
  unfold ownSet at held
  split at held
  · cases held
  · rename_i csid cut
    unfold Switch.processOpen
    rw [cut, ok_bind, held]
    dsimp only
    rw [read, ok_bind]

/-- What taking an open leaves for the switch to finish, on the one line. -/
structure Gives (before : THSwitch) (peer : IdentityRef) (store : Store) : Prop where
  few : store.nextLine = 1
  current : (store.identities peer).currentLine = some 0
  out : Told (store.lines 0)
  named : 0 < before.store.nextLine → (store.lines 0).inLineId.isSome

theorem takeLine_gives {opened : Opened} {lineKeys : KeyPair} {lineId : String} {time : Nat}
    {peer : IdentityRef} {store : Store} {line : LineRef} (one : OneLine peer switch)
    (inside : ∀ line, (switch.store.identities peer).currentLine = some line →
      line < switch.store.nextLine)
    (taking : takeLine opened lineKeys peer (some (.string lineId)) time switch.store =
      .ok (store, some line)) : line = 0 ∧ Gives switch peer store := by
  unfold takeLine at taking
  split at taking
  · rename_i current held
    obtain ⟨info, _, taking⟩ := (bind_ok_iff _ _ _).mp taking
    have some_ := Nat.lt_of_le_of_lt (Nat.zero_le _) (inside current held)
    have first : current = 0 := Option.some.inj (held.symm.trans (one.current some_))
    subst first
    cases taking
    refine ⟨rfl, Nat.le_antisymm one.few some_, held, ⟨lineId, ?_⟩, fun _ => ?_⟩
    · simp [handleOpen]
    · simpa [handleOpen] using one.named some_
  · rename_i unlined
    have none_ : switch.store.nextLine = 0 := by
      by_contra some_
      rw [one.current (Nat.pos_of_ne_zero some_)] at unlined
      cases unlined
    cases taking
    refine ⟨none_, ?_, ?_, ⟨lineId, ?_⟩, ?_⟩
    · change switch.store.nextLine + 1 = 1
      rw [none_]
    · simp [none_]
    · simp [Store.allocLine, none_, handleOpen]
    · intro some_
      rw [none_] at some_
      cases some_

/-- Other keys of the peer, or its channels closed, leave the one line. -/
theorem oneLine_identity {peer ref : IdentityRef} {change : THIdentity → THIdentity}
    (one : OneLine peer switch)
    (kept : (change (switch.store.identities ref)).currentLine =
      (switch.store.identities ref).currentLine) :
    OneLine peer (switch.updateStore fun store => store.updateIdentity ref change) := by
  refine { one with current := ?_ }
  intro some_
  have before := one.current some_
  by_cases same : peer = ref
  · subst same
    rw [← before, ← kept]
    simp [THSwitch.updateStore]
  · rw [← before]
    simp [THSwitch.updateStore, Store.updateIdentity, same]

/-- What the opens of the peer say of themselves. -/
def Clear (opened : Opened) : Prop :=
  Timed opened ∧ ∃ lineId, opened.inner.objectForKey "line" = some (.string lineId)

theorem takeOpen_gives {opened : Opened} {lineKeys : KeyPair} {peer : IdentityRef} {store : Store}
    {line : LineRef} (one : OneLine peer switch)
    (inside : ∀ line, (switch.store.identities peer).currentLine = some line →
      line < switch.store.nextLine) (clear : Clear opened)
    (taking : takeOpen opened lineKeys peer switch.store = .ok (store, some line)) :
    line = 0 ∧ Gives switch peer store := by
  obtain ⟨time, lineId, _, _, named, _, _, taking⟩ :=
    (takeOpen_accepted_iff opened lineKeys peer switch.store store line).mp taking
  obtain ⟨_, said, tells⟩ := clear
  rw [tells] at named
  cases named
  split at taking
  · have closed : OneLine peer (switch.updateStore fun store => closeChannels peer store) := by
      refine { one with current := fun some_ => ?_ }
      simpa [THSwitch.updateStore, closeChannels] using one.current some_
    have insideClosed : ∀ line, ((switch.updateStore fun store =>
        closeChannels peer store).store.identities peer).currentLine = some line →
        line < switch.store.nextLine := by
      intro line held
      simp only [THSwitch.updateStore, closeChannels, identities_updateIdentity_same] at held
      exact inside line held
    obtain ⟨first, few, current, out, named⟩ := takeLine_gives closed insideClosed taking
    exact ⟨first, few, current, out, named⟩
  · exact takeLine_gives one inside taking

/-- Nothing was heard on the line yet, so no open of the peer is late. -/
theorem acceptable_unregistered {opened : Opened} (one : OneLine setting.peer switch)
    (sound : Sound prim generated setting none none switch) (unregistered : ¬ Registered switch)
    (clear : Clear opened) (authentic : opened.authentic = .ok true)
    (class_ : opened.incomingCS.csid = setting.csid) :
    Acceptable opened (currentLineOf switch.store setting.peer) := by
  obtain ⟨⟨time, timed⟩, lineId, named⟩ := clear
  refine ⟨authentic, time, timed, ?_⟩
  unfold currentLineOf
  cases held : (switch.store.identities setting.peer).currentLine with
  | none => exact ⟨rfl, rfl, fun line same => nomatch same⟩
  | some current =>
      have inside := sound.current current held
      have some_ := Nat.lt_of_le_of_lt (Nat.zero_le _) inside
      have first : current = 0 := Option.some.inj (held.symm.trans (one.current some_))
      subst first
      obtain ⟨out, created⟩ := one.unheard some_ unregistered
      refine ⟨?_, ?_, ?_⟩
      · simp [olderThanCurrent, created]
      · simp [reopensCurrent, isEqualToString, readText, out]
      · rintro line ⟨⟩
        obtain ⟨info, stored, infoClass, _⟩ := sound.equipped 0 inside (by simp)
        rw [stored, class_, ← infoClass]
        cases info with
        | info2a info => exact ⟨_, rfl⟩
        | info3a info => exact ⟨_, rfl⟩

/-! ## Completing an open -/

theorem sound_unqueued {line : LineRef} (returnPath : Option THPath)
    (sound : Sound prim generated setting none (some line) switch)
    (inside : line < switch.store.nextLine) :
    Sound prim generated setting none none
      (SwitchSound.unqueued prim switch returnPath line) := by
  have owner : switch.toIdentity line = setting.peer := sound.owned line inside
  obtain ⟨_, _, keys, current⟩ :=
    SwitchSound.usePath_kept returnPath (switch.store.identities setting.peer)
  have pathed := sound_identity sound setting.peer (usePath returnPath) keys (Or.inr current)
  have cleared := sound_forgetLine pathed
  rw [SwitchSound.forgetLine_eq] at cleared
  unfold SwitchSound.unqueued
  rw [owner]
  refine { cleared with pending := ?_ }
  intro job member
  exact sound.pending job (List.mem_of_mem_eraseP member)

/-- What the switch has sent and kept to send again can be read. -/
def AllTimed (switch : THSwitch) : Prop :=
  (∀ opened ∈ switch.sent, Timed opened) ∧
    ∀ line opened, switch.cachedOpen line = some opened → Timed opened

theorem oneLine_registered {peer : IdentityRef} (few : after.store.nextLine = 1)
    (current : (after.store.identities peer).currentLine = some 0)
    (named : (after.store.lines 0).inLineId.isSome) (registered : Registered after)
    (timed : AllTimed after) : OneLine peer after where
  few := Nat.le_of_eq few
  current := fun _ => current
  named := fun _ => named
  unheard := fun _ unregistered => absurd registered unregistered
  timed := timed.1
  timedCached := timed.2

/-- A switch with all it needs to register its line. -/
structure Ready (prim : Primitives) (generated : KeyPair → Prop) (setting : Setting)
    (switch : THSwitch) : Prop where
  sound : Sound prim generated setting none none switch
  few : switch.store.nextLine = 1
  current : (switch.store.identities setting.peer).currentLine = some 0
  out : Told (switch.store.lines 0)
  told : ∃ remote, remoteKey (switch.store.lines 0) = some remote
  timed : AllTimed switch

theorem openAndRegister_completes (ready : Ready prim generated setting switch)
    (named : (switch.store.lines 0).inLineId.isSome) (lineKeys : KeyPair) :
    ∃ after, openAndRegister prim switch lineKeys 0 = .ok after ∧
      OneLine setting.peer after ∧ Registered after := by
  have inside : 0 < switch.store.nextLine := by
    rw [ready.few]
    exact Nat.one_pos
  obtain ⟨remote, told⟩ := ready.told
  have registers : ∃ after, openAndRegister prim switch lineKeys 0 = .ok after :=
    openAndRegister_ready (ready.sound.equipped 0 inside (by simp)) told ready.out named lineKeys
  obtain ⟨after, registering⟩ := registers
  have done := openAndRegister_registers registering
  refine ⟨after, registering, oneLine_registered ?_ ?_ done.named done.registered ?_,
    done.registered⟩
  · rw [done.next, ready.few]
  · rw [done.identities, ready.current]
  · unfold AllTimed
    rw [done.sent, done.cachedOpen]
    exact ready.timed

theorem ready_sent {sent : THSwitch} (ready : Ready prim generated setting switch)
    (drawn : Drawn generated switch fresh) (sending : sendOpen prim switch fresh 0 = .ok sent)
    (sends : Sends switch sent 0) : Ready prim generated setting sent := by
  have inside : 0 < switch.store.nextLine := by
    rw [ready.few]
    exact Nat.one_pos
  obtain ⟨sound, lasts⟩ := sendOpen_ok ready.sound inside drawn (Or.inl rfl) sending
  obtain ⟨remote, told⟩ := ready.told
  refine ⟨sound, ?_, ?_, ?_, ⟨remote, (lasts.remote 0).trans told⟩, ?_⟩
  · rw [sends.next, ready.few]
  · rw [sends.identities, ready.current]
  · unfold Told
    rw [sends.out]
    exact ready.out
  · exact ⟨sends.timed ready.timed.1, sends.timedCached ready.timed.2⟩

/-- Whether it answers an open of ours or not, an open that gave the line completes it. -/
theorem completeOpen_completes {before : THSwitch} {returnPath : Option THPath} {remote : Data}
    (sound : Sound prim generated setting none (some 0) switch)
    (gives : Gives before setting.peer switch.store)
    (told : remoteKey (switch.store.lines 0) = some remote) (drawn : Drawn generated switch fresh)
    (timed : AllTimed switch) :
    ∃ after, completeOpen prim switch fresh returnPath 0 = .ok after ∧
      OneLine setting.peer after ∧ Registered after := by
  have inside : 0 < switch.store.nextLine := by
    rw [gives.few]
    exact Nat.one_pos
  have owner : switch.toIdentity 0 = setting.peer := sound.owned 0 inside
  have whole := sound_unqueued returnPath sound inside
  have current : ((SwitchSound.unqueued prim switch returnPath 0).store.identities
      setting.peer).currentLine = some 0 := by
    obtain ⟨_, _, _, kept⟩ :=
      SwitchSound.usePath_kept returnPath (switch.store.identities setting.peer)
    simp only [SwitchSound.unqueued, THSwitch.updateStore, owner, identities_updateIdentity_same]
    rw [kept, gives.current]
  have ready : Ready prim generated setting (SwitchSound.unqueued prim switch returnPath 0) :=
    ⟨whole, gives.few, current, gives.out, ⟨remote, told⟩, timed⟩
  have drawnLeft : Drawn generated (SwitchSound.unqueued prim switch returnPath 0) fresh :=
    ⟨drawn.keys, drawn.lineId⟩
  have answers : ∃ after, (sendOpen prim (SwitchSound.unqueued prim switch returnPath 0) fresh 0 >>=
      fun answered => openAndRegister prim answered fresh.lineKeys 0) = .ok after ∧
      OneLine setting.peer after ∧ Registered after := by
    obtain ⟨answered, sending, sends⟩ :=
      sendOpen_sends ready.sound inside drawnLeft (Or.inl rfl) timed.2
    rw [sending, ok_bind]
    exact openAndRegister_completes (ready_sent ready drawnLeft sending sends) sends.named
      fresh.lineKeys
  rw [SwitchSound.completeOpen_eq]
  cases queued : SwitchSound.pendingFor prim switch (switch.toIdentity 0) with
  | none => exact answers
  | some job =>
      cases named : (switch.store.lines 0).inLineId with
      | none => exact answers
      | some lineId =>
          have pending : job.pending = setting.peer :=
            sound.pending job (List.mem_of_find?_eq_some queued)
          dsimp only
          rw [pending, current]
          have namedLeft : ((SwitchSound.unqueued prim switch returnPath 0).store.lines
              0).inLineId.isSome := by
            change ((switch.store.lines 0).inLineId).isSome
            rw [named]
            rfl
          exact openAndRegister_completes ready namedLeft fresh.lineKeys

/-! ## An open of the peer -/

section Receiving
variable {opened sent : Opened} {returnPath : Option THPath}

theorem clear_same (same : SameOpen opened sent) (clear : Clear sent) : Clear opened := by
  unfold Clear Timed
  rw [sameOpen_objectForKey same, sameOpen_objectForKey same]
  exact clear

variable (switch setting) in
/-- The switch with the keys the open came under. -/
def keyed (prim : Primitives) (cipherSet : THCipherSet) : THSwitch :=
  switch.updateStore fun store => store.updateIdentity setting.peer
    (THIdentity.setKeys (some (fingerprintParts prim.sha256 setting.theirs)) cipherSet)

theorem acceptOpen_takes (sound : Sound prim generated setting none none switch)
    (same : SameOpen opened sent) (signed : Signed prim setting.csid setting.theirs sent)
    (lineKeys : KeyPair) :
    acceptOpen prim opened lineKeys switch.store =
      takeOpen opened lineKeys setting.peer
        (keyed setting switch prim opened.incomingCS).store := by
  have from_ := signed.1
  rw [← sameOpen_objectForKey same] at from_
  exact OpenAuthentication.acceptOpen_known prim lineKeys from_ sound.known

/-- An open that gives a line is completed. -/
theorem receiveOpen_given {store : Store} {line : LineRef} (one : OneLine setting.peer switch)
    (sound : Sound prim generated setting none none switch) (drawn : Drawn generated switch fresh)
    (member : sent ∈ setting.heard) (same : SameOpen opened sent)
    (signed : Signed prim setting.csid setting.theirs sent) (clear : Clear sent)
    (accepting : acceptOpen prim opened fresh.lineKeys switch.store = .ok (store, some line)) :
    ∃ after, receiveOpen prim switch fresh returnPath opened = .ok after ∧
      OneLine setting.peer after ∧ Registered after := by
  have oneKeyed : OneLine setting.peer (keyed setting switch prim opened.incomingCS) :=
    oneLine_identity one rfl
  have inside : ∀ line, ((keyed setting switch prim opened.incomingCS).store.identities
      setting.peer).currentLine = some line → line < switch.store.nextLine := by
    intro line held
    simp only [keyed, THSwitch.updateStore, identities_updateIdentity_same] at held
    exact sound.current line held
  have taking := acceptOpen_takes sound same signed fresh.lineKeys
  rw [accepting] at taking
  obtain ⟨rfl, gives⟩ := takeOpen_gives oneKeyed inside (clear_same same clear) taking.symm
  rcases acceptOpen_ok sound drawn.keys member same signed accepting with
    ⟨no, _⟩ | ⟨_, first, taken⟩
  · cases no
  · cases first
    obtain ⟨remote, told⟩ := taken.remote
    have drawnTaken : Drawn generated { switch with store := store } fresh := by
      refine ⟨drawn.keys, fun ref inside named => ?_⟩
      obtain ⟨other, before, held⟩ := taken.names ref inside _ named
      exact drawn.lineId other before held
    have completes : ∃ after, completeOpen prim { switch with store := store } fresh returnPath 0 =
        .ok after ∧ OneLine setting.peer after ∧ Registered after :=
      completeOpen_completes taken.sound gives told drawnTaken ⟨one.timed, one.timedCached⟩
    obtain ⟨after, completed, done⟩ := completes
    refine ⟨after, ?_, done⟩
    rw [receiveOpen, accepting, ok_bind]
    exact completed

/-- An open of the peer leaves one line, and registered if it was. -/
theorem receiveOpen_keeps (one : OneLine setting.peer switch)
    (sound : Sound prim generated setting none none switch) (drawn : Drawn generated switch fresh)
    (member : sent ∈ setting.heard) (same : SameOpen opened sent)
    (signed : Signed prim setting.csid setting.theirs sent) (clear : Clear sent)
    (received : receiveOpen prim switch fresh returnPath opened = .ok after) :
    OneLine setting.peer after ∧ (Registered switch → Registered after) := by
  obtain ⟨⟨store, given⟩, accepting, completing⟩ := (bind_ok_iff _ _ _).mp received
  cases given with
  | none =>
      cases completing
      have taking := acceptOpen_takes sound same signed fresh.lineKeys
      rw [accepting] at taking
      obtain ⟨rfl, _⟩ := (takeOpen_rejected_iff opened fresh.lineKeys setting.peer _ _).mp
        taking.symm
      have oneKeyed : OneLine setting.peer (keyed setting switch prim opened.incomingCS) :=
        oneLine_identity one rfl
      exact ⟨oneKeyed, id⟩
  | some line =>
      have given : ∃ done, receiveOpen prim switch fresh returnPath opened = .ok done ∧
          OneLine setting.peer done ∧ Registered done :=
        receiveOpen_given one sound drawn member same signed clear accepting
      obtain ⟨done, completes, oneDone, registered⟩ := given
      rw [received] at completes
      cases completes
      exact ⟨oneDone, fun _ => registered⟩

/-- The first open of the peer that is taken registers the line. -/
theorem receiveOpen_registers (one : OneLine setting.peer switch)
    (sound : Sound prim generated setting none none switch) (drawn : Drawn generated switch fresh)
    (member : sent ∈ setting.heard) (same : SameOpen opened sent)
    (signed : Signed prim setting.csid setting.theirs sent) (clear : Clear sent)
    (authentic : opened.authentic = .ok true) (unregistered : ¬ Registered switch) :
    ∃ after, receiveOpen prim switch fresh returnPath opened = .ok after ∧ Registered after := by
  have class_ : opened.incomingCS.csid = setting.csid := by
    rw [same.cipherSet]
    exact signed.2
  have acceptable := acceptable_unregistered one sound unregistered (clear_same same clear)
    authentic class_
  have current : currentLineOf (keyed setting switch prim opened.incomingCS).store setting.peer =
      currentLineOf switch.store setting.peer :=
    OpenAuthentication.currentLineOf_setKeys _ _ _ _
  rw [← current] at acceptable
  obtain ⟨store, line, taking⟩ :=
    (takeOpen_gives_iff opened fresh.lineKeys setting.peer _).mpr acceptable
  rw [← acceptOpen_takes sound same signed] at taking
  obtain ⟨after, received, _, registered⟩ :=
    receiveOpen_given one sound drawn member same signed clear taking
  exact ⟨after, received, registered⟩

end Receiving

/-! ## Every event but a closed line -/

theorem first_current (one : OneLine setting.peer switch) {line : LineRef}
    (sound : Sound prim generated setting none none switch)
    (held : (switch.store.identities setting.peer).currentLine = some line) :
    0 < switch.store.nextLine ∧ line = 0 := by
  have some_ := Nat.lt_of_le_of_lt (Nat.zero_le _) (sound.current line held)
  exact ⟨some_, Option.some.inj (held.symm.trans (one.current some_))⟩

/-- An open sent on the one line leaves it as it was, with an id. -/
theorem oneLine_sends {peer : IdentityRef} (few : switch.store.nextLine = 1)
    (current : (switch.store.identities peer).currentLine = some 0)
    (unheard : ¬ Registered switch → (switch.store.lines 0).outLineId = none ∧
      (switch.store.lines 0).createdAt = 0)
    (timed : AllTimed switch) (sends : Sends switch after 0) : OneLine peer after := by
  refine ⟨?_, ?_, fun _ => sends.named, ?_, sends.timed timed.1, sends.timedCached timed.2⟩
  · rw [sends.next, few]
  · intro _
    rw [sends.identities, current]
  · intro _ unregistered
    rw [sends.out, sends.created]
    refine unheard fun registered => unregistered ?_
    unfold Registered
    rw [sends.openLines]
    exact registered

/-- What an event keeps. -/
def Keeps (peer : IdentityRef) (switch after : THSwitch) : Prop :=
  OneLine peer after ∧ (Registered switch → Registered after)

theorem keeps_sendOpen {line : LineRef} (one : OneLine setting.peer switch)
    (sound : Sound prim generated setting none none switch) (drawn : Drawn generated switch fresh)
    (current : (switch.store.identities setting.peer).currentLine = some line)
    (sending : sendOpen prim switch fresh line = .ok after) : Keeps setting.peer switch after := by
  obtain ⟨some_, rfl⟩ := first_current one sound current
  obtain ⟨sent, sends_, sends⟩ := sendOpen_sends sound some_ drawn (Or.inl rfl) one.timedCached
  rw [sending] at sends_
  cases sends_
  refine ⟨oneLine_sends (Nat.le_antisymm one.few some_) current (one.unheard some_)
    ⟨one.timed, one.timedCached⟩ sends, ?_⟩
  unfold Registered
  rw [sends.openLines]
  exact id

theorem keeps_tryVias {opened : THSwitch} {peer : IdentityRef} (peerChannel : Option ChannelRef)
    (keeps : Keeps peer switch opened) : Keeps peer switch (tryVias opened peer peerChannel) := by
  unfold tryVias
  dsimp only
  split
  · exact ⟨oneLine_identity keeps.1 rfl, keeps.2⟩
  · exact keeps

/-- The switch with a line just made for the peer. -/
def withNewLine (switch : THSwitch) (peer : IdentityRef) : THSwitch :=
  switch.updateStore fun store => (store.allocLine (.new peer)).updateIdentity peer fun identity =>
    { identity with currentLine := some store.nextLine }

theorem lines_withNewLine (switch : THSwitch) (peer : IdentityRef) :
    (withNewLine switch peer).store.lines switch.store.nextLine = .new peer := by
  simp [withNewLine, THSwitch.updateStore, Store.allocLine]

theorem sound_withNewLine (sound : Sound prim generated setting none none switch) :
    Sound prim generated setting (some switch.store.nextLine) none
      (withNewLine switch setting.peer) := by
  have blank : Heard setting.heard (.new setting.peer) := Or.inl ⟨rfl, rfl⟩
  have grown := sound_allocLine (sound_bare sound switch.store.nextLine) (by rfl) (by rfl)
    blank (fun other => absurd rfl other)
  exact sound_updateIdentity grown setting.peer
    (fun identity => { identity with currentLine := some switch.store.nextLine })
    (fun _ => grown.uses) (fun _ line same => by cases same; exact Nat.lt_succ_self _)

/-- The open on a line just made for the peer. -/
theorem keeps_newLine (one : OneLine setting.peer switch)
    (sound : Sound prim generated setting none none switch) (drawn : Drawn generated switch fresh)
    (unlined : (switch.store.identities setting.peer).currentLine = none)
    (sending : sendOpen prim (withNewLine switch setting.peer) fresh switch.store.nextLine =
      .ok after) : Keeps setting.peer switch after := by
  have none_ : switch.store.nextLine = 0 := by
    by_contra some_
    rw [one.current (Nat.pos_of_ne_zero some_)] at unlined
    cases unlined
  have new := lines_withNewLine switch setting.peer
  have few : (withNewLine switch setting.peer).store.nextLine = 1 := by
    change switch.store.nextLine + 1 = 1
    rw [none_]
  have undrawn : Drawn generated (withNewLine switch setting.peer) fresh := by
    refine ⟨drawn.keys, fun ref inside named => ?_⟩
    rw [few, Nat.lt_one_iff] at inside
    rw [inside, ← none_, new] at named
    cases named
  have timed : AllTimed switch := ⟨one.timed, one.timedCached⟩
  obtain ⟨sent, sends_, sends⟩ := sendOpen_sends (sound_withNewLine sound) (Nat.lt_succ_self _)
    undrawn (Or.inr ⟨rfl, by rw [new]; rfl⟩) timed.2
  rw [sending] at sends_
  cases sends_
  rw [none_] at sends new
  refine ⟨oneLine_sends few ?_ (fun _ => by rw [new]; exact ⟨rfl, rfl⟩) timed sends, ?_⟩
  · simp [withNewLine, THSwitch.updateStore, none_]
  · unfold Registered
    rw [sends.openLines]
    exact id

theorem keeps_openLine {peerChannel : Option ChannelRef} (one : OneLine setting.peer switch)
    (sound : Sound prim generated setting none none switch) (drawn : Drawn generated switch fresh)
    (opening : Switch.openLine prim switch fresh peerChannel setting.peer = .ok after) :
    Keeps setting.peer switch after := by
  unfold Switch.openLine at opening
  dsimp only at opening
  split at opening
  · cases opening
    exact ⟨one, id⟩
  · generalize queuing : (if switch.pendingJobs.any fun job =>
        samePeer prim switch job.pending setting.peer then switch
      else { switch with
        pendingJobs := switch.pendingJobs ++ [⟨switch.nextJob, setting.peer⟩]
        nextJob := switch.nextJob + 1 }) = queued
    at opening
    have waiting : Sound prim generated setting none none queued ∧
        Keeps setting.peer switch queued ∧ Drawn generated queued fresh := by
      rw [← queuing]
      split
      · exact ⟨sound, ⟨one, id⟩, drawn⟩
      · refine ⟨sound_pending sound ?_, ⟨{ one with }, id⟩, ⟨drawn.keys, drawn.lineId⟩⟩
        intro job member
        rcases List.mem_append.mp member with old | new
        · exact sound.pending job old
        · cases List.mem_singleton.mp new
          rfl
    obtain ⟨whole, ⟨oneQueued, registered⟩, drawnNow⟩ := waiting
    split at opening
    · obtain ⟨sent, sending, opening⟩ := (bind_ok_iff _ _ _).mp opening
      cases opening
      apply keeps_tryVias
      unfold withCurrentLine at sending
      split at sending
      · rename_i line held
        obtain ⟨kept, still⟩ := keeps_sendOpen oneQueued whole drawnNow held sending
        exact ⟨kept, still ∘ registered⟩
      · rename_i unlined
        obtain ⟨kept, still⟩ := keeps_newLine oneQueued whole drawnNow unlined sending
        exact ⟨kept, still ∘ registered⟩
    · cases opening
      exact keeps_tryVias peerChannel ⟨oneQueued, registered⟩

theorem keeps_processOpen {packet : THPacket} (one : OneLine setting.peer switch)
    (sound : Sound prim generated setting none none switch) (drawn : Drawn generated switch fresh)
    (signed : ∀ sent ∈ setting.heard, Signed prim setting.csid setting.theirs sent)
    (clear : ∀ sent ∈ setting.heard, Clear sent)
    (genuine : Genuine prim setting.heard switch packet)
    (processed : Switch.processOpen prim switch fresh packet = .ok after) :
    Keeps setting.peer switch after := by
  rcases SwitchSound.processOpen_cases processed with rfl | ⟨own, opened, held, read, received⟩
  · exact ⟨one, id⟩
  · unfold ownSet at held
    split at held
    · cases held
    · obtain ⟨sent, member, same⟩ := genuine _ own opened held read
      exact receiveOpen_keeps one sound drawn member same (signed sent member) (clear sent member)
        received

/-- The line has an id, so no timer drops it. -/
theorem keeps_lineTimeout {peer : IdentityRef} (one : OneLine peer switch) (job : Nat)
    (ref : IdentityRef) : Keeps peer switch (Switch.lineTimeout switch job ref) := by
  unfold Switch.lineTimeout
  dsimp only
  split
  · exact ⟨one, id⟩
  · rename_i unnamed
    refine ⟨{ one with current := ?_ }, id⟩
    intro some_
    have held := one.current some_
    have other : peer ≠ ref := by
      rintro rfl
      rw [held] at unnamed
      exact unnamed (one.named some_)
    rw [← held]
    simp [THSwitch.updateStore, Store.updateIdentity, other]

/-- Every event but a closed line keeps to the one line. -/
theorem keeps_step (event : LineKeys.Event) (one : OneLine setting.peer switch)
    (sound : Sound prim generated setting none none switch)
    (signed : ∀ sent ∈ setting.heard, Signed prim setting.csid setting.theirs sent)
    (clear : ∀ sent ∈ setting.heard, Clear sent)
    (possible : match event with
      | .openLine fresh _ toIdentity => Drawn generated switch fresh ∧ toIdentity = setting.peer
      | .processOpen fresh incomingPacket =>
          Drawn generated switch fresh ∧ Genuine prim setting.heard switch incomingPacket
      | .pingLine fresh line => Drawn generated switch fresh ∧
          (switch.store.identities setting.peer).currentLine = some line
      | .closeLine _ => False
      | .lineTimeout _ _ => True) :
    Keeps setting.peer switch (LineKeys.step prim switch event) := by
  have settles : ∀ {result : Except Fault THSwitch},
      (∀ after, result = .ok after → Keeps setting.peer switch after) →
      Keeps setting.peer switch (settle switch result) := by
    intro result finished
    cases result with
    | ok after => exact finished after rfl
    | error fault => exact ⟨one, id⟩
  cases event with
  | openLine fresh peerChannel toIdentity =>
      obtain ⟨drawn, rfl⟩ := possible
      exact settles fun after opening => keeps_openLine one sound drawn opening
  | processOpen fresh incomingPacket =>
      exact settles fun after processed =>
        keeps_processOpen one sound possible.1 signed clear possible.2 processed
  | pingLine fresh line =>
      exact settles fun after sending => keeps_sendOpen one sound possible.1 possible.2 sending
  | closeLine line => exact possible.elim
  | lineTimeout job toIdentity => exact keeps_lineTimeout one job toIdentity

/-- An open of the peer that is read registers the line. -/
theorem registers_processOpen {packet : THPacket} (one : OneLine setting.peer switch)
    (sound : Sound prim generated setting none none switch) (drawn : Drawn generated switch fresh)
    (signed : ∀ sent ∈ setting.heard, Signed prim setting.csid setting.theirs sent)
    (clear : ∀ sent ∈ setting.heard, Clear sent) (brings : Brings prim setting.heard switch packet)
    (keeps : Keeps setting.peer switch (LineKeys.step prim switch (.processOpen fresh packet))) :
    Registered (LineKeys.step prim switch (.processOpen fresh packet)) := by
  by_cases registered : Registered switch
  · exact keeps.2 registered
  · obtain ⟨own, opened, sent, held, read, authentic, member, same⟩ := brings
    have taken : ∃ after, receiveOpen prim switch fresh packet.returnPath opened = .ok after ∧
        Registered after :=
      receiveOpen_registers one sound drawn member same (signed sent member) (clear sent member)
        authentic registered
    obtain ⟨after, received, done⟩ := taken
    rw [LineKeys.step, processOpen_reads held read, received]
    exact done

end Operations

/-! ## Two ends -/

section Ends
variable {prim : Primitives} {generated : KeyPair → Prop} {csid : CipherSetId}
  {peer : Side → IdentityRef} {start : Pair}

variable (prim generated peer) in
/-- Whatever can happen, but no line is closed. -/
def Opening (pair : Pair) (action : Action LineKeys.Event) : Prop :=
  Possible prim generated peer pair action ∧ ∀ line, action.event ≠ .closeLine line

/-- Both ends are sound and keep to one line. -/
structure BothOpening (prim : Primitives) (generated : KeyPair → Prop) (csid : CipherSetId)
    (peer : Side → IdentityRef) (parts : Side → CipherParts) (pair : Pair) : Prop where
  sound : BothSound prim generated csid peer parts pair
  one : ∀ side, OneLine (peer side) (pair side)

theorem clear_sent {parts : Side → CipherParts} {pair : Pair}
    (both : BothOpening prim generated csid peer parts pair) (side : Side) :
    ∀ sent ∈ (pair side).sent, Clear sent := by
  intro sent member
  obtain ⟨_, _, ⟨_, lineId, _, _, tells, _⟩, _⟩ := (both.sound side).sent sent member
  exact ⟨(both.one side).timed sent member, lineId, tells⟩

theorem keeps_act {parts : Side → CipherParts} {pair : Pair} {action : Action LineKeys.Event}
    (both : BothOpening prim generated csid peer parts pair)
    (opening : Opening prim generated peer pair action) (which : Side) :
    Keeps (peer which) (pair which) (act (LineKeys.step prim) pair action which) := by
  obtain ⟨side, event⟩ := action
  obtain ⟨possible, unclosed⟩ := opening
  rcases side_cases side which with rfl | rfl
  · rw [act_same]
    refine keeps_step event (both.one which) (both.sound which) (signed_sent both.sound which.other)
      (clear_sent both which.other) ?_
    cases event with
    | closeLine line => exact absurd rfl (unclosed line)
    | _ => exact possible
  · rw [act_other]
    exact ⟨both.one _, id⟩

theorem bothOpening_act {parts : Side → CipherParts} (pair : Pair)
    (action : Action LineKeys.Event) (opening : Opening prim generated peer pair action)
    (both : BothOpening prim generated csid peer parts pair) :
    BothOpening prim generated csid peer parts (act (LineKeys.step prim) pair action) :=
  ⟨bothSound_act pair action opening.1 both.sound, fun which => (keeps_act both opening which).1⟩

theorem bothOpening_start (acquainted : Acquainted prim csid peer start) :
    BothOpening prim generated csid peer (fun side => (start side).cipherParts) start := by
  refine ⟨bothSound_start acquainted, fun side => ?_⟩
  have none_ : ∀ {property : Prop}, 0 < (start side).store.nextLine → property := by
    intro property some_
    rw [acquainted.noLines side] at some_
    cases some_
  refine ⟨?_, none_, none_, none_, ?_, ?_⟩
  · rw [acquainted.noLines side]
    exact Nat.zero_le 1
  · rw [acquainted.noneSent side]
    exact List.forall_mem_nil _
  · intro line opened cached
    rw [acquainted.noneCached side] at cached
    cases cached

theorem registered_run {parts : Side → CipherParts} (pair : Pair)
    (events : List (Action LineKeys.Event)) (both : BothOpening prim generated csid peer parts pair)
    (opening : Along (act (LineKeys.step prim)) (Opening prim generated peer) pair events)
    (side : Side) (registered : Registered (pair side)) :
    Registered (run (act (LineKeys.step prim)) pair events side) := by
  have kept : ∀ pair action, Opening prim generated peer pair action →
      BothOpening prim generated csid peer parts pair ∧ Registered (pair side) →
      BothOpening prim generated csid peer parts (act (LineKeys.step prim) pair action) ∧
        Registered (act (LineKeys.step prim) pair action side) := by
    rintro pair action may ⟨both, held⟩
    exact ⟨bothOpening_act pair action may both, (keeps_act both may side).2 held⟩
  exact (run_invariant kept pair events ⟨both, registered⟩ opening).2

variable (prim) in
/-- Somewhere on the way the end is given an open of the other. -/
def Handed (start : Pair) (events : List (Action LineKeys.Event)) (side : Side) : Prop :=
  ∃ before fresh packet later, events = before ++ ⟨side, .processOpen fresh packet⟩ :: later ∧
    Brings prim (run (act (LineKeys.step prim)) start before side.other).sent
      (run (act (LineKeys.step prim)) start before side) packet

theorem registered_handed (acquainted : Acquainted prim csid peer start)
    (events : List (Action LineKeys.Event))
    (opening : Along (act (LineKeys.step prim)) (Opening prim generated peer) start events)
    {side : Side} (handed : Handed prim start events side) :
    Registered (run (act (LineKeys.step prim)) start events side) := by
  obtain ⟨before, fresh, packet, later, rfl, brings⟩ := handed
  obtain ⟨early, may, late⟩ := (along_append start before _).mp opening
  have both := run_invariant bothOpening_act start before (bothOpening_start acquainted) early
  rw [run_append, run_cons]
  generalize run (act (LineKeys.step prim)) start before = pair at brings may late both ⊢
  have keeps := keeps_act both may side
  rw [act_same] at keeps
  have registers := registers_processOpen (both.one side) (both.sound side) may.1.1
    (signed_sent both.sound side.other) (clear_sent both side.other) brings keeps
  refine registered_run _ later (bothOpening_act pair _ may both) late side ?_
  rw [act_same]
  exact registers

/-- Two registered lines, each the one line of its end, face each other. -/
theorem facing_registered {parts : Side → CipherParts} {pair : Pair}
    (both : BothOpening prim generated csid peer parts pair)
    (registered : ∀ side, Registered (pair side)) (side : Side) : Facing pair side 0 0 := by
  have names : ∀ which : Side, ((pair which).store.lines 0).outLineId =
      ((pair which.other).store.lines 0).inLineId.map .string := by
    intro which
    obtain ⟨lineId, found⟩ := registered which
    obtain ⟨inside, _, finalized⟩ := (both.sound which).registered lineId 0 found
    obtain ⟨_, _, outLineId, _, _, _, _, out, _⟩ := finalized (by simp)
    rcases (both.sound which).told 0 inside with ⟨unnamed, _⟩ | ⟨opened, member, tells, _⟩
    · rw [out] at unnamed
      cases unnamed
    · obtain ⟨line, insideOther, ⟨_, said, _, named, text, _⟩, _⟩ :=
        (both.sound which.other).sent opened member
      have first : line = 0 :=
        Nat.lt_one_iff.mp (Nat.lt_of_lt_of_le insideOther (both.one which.other).few)
      rw [text] at tells
      rw [first] at named
      rw [named, ← tells, Option.map_some]
  refine ⟨registered side, registered side.other, names side, ?_⟩
  have back := names side.other
  rw [other_other] at back
  exact back

/-- Whatever is lost, repeated, crossed or held up: once each end has been given an open
of the other, the one line of each faces that of the other, and what either encrypts the
other decrypts. -/
theorem handshake_completes (exchange : KeyExchange prim generated csid)
    (acquainted : Acquainted prim csid peer start) (events : List (Action LineKeys.Event))
    (opening : Along (act (LineKeys.step prim)) (Opening prim generated peer) start events)
    (handed : ∀ side, Handed prim start events side) (side : Side) :
    Facing (run (act (LineKeys.step prim)) start events) side 0 0 ∧
      (run (act (LineKeys.step prim)) start events side).store.nextLine = 1 ∧
      ∃ key,
        encryptorKey ((run (act (LineKeys.step prim)) start events side).store.lines 0) =
          some key ∧
        decryptorKey ((run (act (LineKeys.step prim)) start events side.other).store.lines 0) =
          some key := by
  have both := run_invariant bothOpening_act start events (bothOpening_start acquainted) opening
  have registered := fun which => registered_handed acquainted events opening (handed which)
  generalize run (act (LineKeys.step prim)) start events = pair at both registered ⊢
  have facing := facing_registered both registered side
  obtain ⟨lineId, found⟩ := registered side
  obtain ⟨otherId, foundThere⟩ := registered side.other
  obtain ⟨inside, _⟩ := (both.sound side).registered lineId 0 found
  exact ⟨facing, Nat.le_antisymm (both.one side).few inside,
    keysAgree_sound exchange both.sound side lineId 0 otherId 0 found foundThere facing.names
      facing.named⟩

end Ends

/-! ## Crossed opens -/

/-- Both ends open, and the opens cross. -/
def crossed : List (Action LineKeys.Event) :=
  [⟨.near, .openLine (freshFor .near) none 0⟩, ⟨.far, .openLine (freshFor .far) none 0⟩,
    ⟨.far, .processOpen spare (openPacketFrom .near)⟩,
    ⟨.near, .processOpen spare (openPacketFrom .far)⟩]

set_option maxRecDepth 20000 in
theorem crossed_opening :
    Along (act (LineKeys.step handshakePrimitives))
      (Opening handshakePrimitives (fun keys => keys.publicKey = keys.secretKey) fun _ => 0)
      startOf crossed := by
  have spared : ∀ (switch : THSwitch) (lineId : String), switch.store.nextLine = 1 →
      (switch.store.lines 0).inLineId = some lineId → lineId ≠ spare.lineId →
      Drawn (fun keys => keys.publicKey = keys.secretKey) switch spare := by
    intro switch lineId few named different
    refine ⟨rfl, fun line inside => ?_⟩
    rw [few, Nat.lt_one_iff] at inside
    rw [inside, named]
    exact fun same => different (Option.some.inj same)
  refine ⟨⟨⟨⟨rfl, fun line inside => nomatch inside⟩, rfl⟩, nofun⟩,
    ⟨⟨⟨rfl, fun line inside => nomatch inside⟩, rfl⟩, nofun⟩,
    ⟨⟨spared _ (lineIdFor .far) rfl rfl (by decide), ?_⟩, nofun⟩,
    ⟨⟨spared _ (lineIdFor .near) rfl rfl (by decide), ?_⟩, nofun⟩, trivial⟩
  · exact handshake_genuine .far _ rfl _ (List.mem_singleton.mpr rfl)
  · exact handshake_genuine .near _ rfl _ (List.mem_singleton.mpr rfl)

set_option maxRecDepth 20000 in
theorem crossed_brings (side : Side) (switch : THSwitch)
    (parts : switch.cipherParts = partsFor side) (opens : List Opened)
    (member : sentFrom side.other ∈ opens) :
    Brings handshakePrimitives opens switch (openPacketFrom side.other) := by
  refine ⟨keysFor side, { sentFrom side.other with
    inner := ⟨some (jsonFrom side.other), some (keysFor side.other).publicKey, 2,
      some LineKeys.path⟩ }, sentFrom side.other, ?_, ?_, rfl, member, rfl, rfl, rfl⟩
  · unfold ownSet
    rw [parts]
    cases side <;> rfl
  · cases side <;> rfl

set_option maxRecDepth 20000 in
theorem crossed_handed (side : Side) : Handed handshakePrimitives startOf crossed side := by
  cases side with
  | near =>
      exact ⟨crossed.take 3, spare, openPacketFrom .far, [], rfl,
        crossed_brings .near _ rfl _ (List.mem_singleton.mpr rfl)⟩
  | far =>
      exact ⟨crossed.take 2, spare, openPacketFrom .near, crossed.drop 3, rfl,
        crossed_brings .far _ rfl _ (List.mem_singleton.mpr rfl)⟩

set_option maxRecDepth 20000 in
theorem handshake_completes_crossed :
    Facing (run (act (LineKeys.step handshakePrimitives)) startOf crossed) .near 0 0 ∧
      (run (act (LineKeys.step handshakePrimitives)) startOf crossed .near).store.nextLine = 1 ∧
      ∃ key,
        encryptorKey ((run (act (LineKeys.step handshakePrimitives)) startOf crossed
          .near).store.lines 0) = some key ∧
        decryptorKey ((run (act (LineKeys.step handshakePrimitives)) startOf crossed
          .far).store.lines 0) = some key :=
  handshake_completes handshake_exchange handshake_acquainted crossed crossed_opening
    crossed_handed .near

end Telehash.Handshake
