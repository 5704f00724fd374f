import Telehash.SwitchRuns

/-!
What always holds of a switch whose events are those of `SwitchRuns`: the cache
names its identities, every line info is on a set of its class, and an open has
been generated for each current line that has an info. One lemma for each operation says
what it can do, one that the invariant stays.
-/

namespace Telehash.SwitchSound
open Association Foundation Packet Identity CipherSet Switch LineInfo THSwitch Runs SwitchRuns

/-- Every cipher set stands under the id of its class. -/
def IdKeyed (cipherParts : CipherParts) : Prop :=
  ∀ id cipherSet, cipherParts.lookup id = some cipherSet → id = cipherSet.csid.identifier

/-- The line info has a cipher set, of its own class. -/
def OfOneClass (info : THCipherSetLineInfo) : Prop :=
  ∃ cipherSet, cipherSetOf info = some cipherSet ∧ cipherSet.csid = csidOf info

/-- An open has been generated for every current line with a line info, the
unsent one apart. -/
structure Wellformed (unsent : Option LineRef) (switch : THSwitch) : Prop where
  known : OpenAuthentication.Sound switch.store
  ownKeys : IdKeyed switch.cipherParts
  keys : ∀ ref, IdKeyed (switch.store.identities ref).cipherParts
  infos : ∀ line info, (switch.store.lines line).cipherSetInfo = some info → OfOneClass info
  cached : ∀ ref line, (switch.store.identities ref).currentLine = some line →
    some line ≠ unsent → (switch.store.lines line).cipherSetInfo.isSome →
    (switch.cachedOpen line).isSome

theorem idKeyed_empty : IdKeyed .empty := by
  intro id cipherSet found
  cases found

theorem idKeyed_insert {cipherParts : CipherParts} (keyed : IdKeyed cipherParts)
    (cipherSet : THCipherSet) :
    IdKeyed (cipherParts.insert cipherSet.csid.identifier cipherSet) := by
  intro id held found
  rw [lookup_insert] at found
  split at found
  · rename_i same
    cases found
    exact same
  · exact keyed id held found

theorem idKeyed_single (cipherSet : THCipherSet) :
    IdKeyed (.single cipherSet.csid.identifier cipherSet) :=
  idKeyed_insert idKeyed_empty cipherSet

theorem idKeyed_addCipherSet (sha256 : Data → Data) {identity : THIdentity}
    (keyed : IdKeyed identity.cipherParts) (cipherSet : THCipherSet) :
    IdKeyed (identity.addCipherSet sha256 cipherSet).cipherParts := by
  unfold THIdentity.addCipherSet
  split
  · exact keyed
  · exact idKeyed_insert keyed cipherSet

theorem identifier_injective {one other : CipherSetId} (same : one.identifier = other.identifier) :
    one = other := by
  cases one <;> cases other <;> first | rfl | exact absurd same (by decide)

/-- The chosen set has a partner of its class on the other side. -/
theorem chosen_partner {own theirs : CipherParts} {cipherSet : THCipherSet} (ours : IdKeyed own)
    (keyed : IdKeyed theirs) (chosen : chooseCipherSet own theirs = some cipherSet) :
    ∃ remote, theirs.lookup cipherSet.csid.identifier = some remote ∧
      remote.csid = cipherSet.csid := by
  unfold chooseCipherSet at chosen
  split at chosen
  · cases chosen
  · rename_i id rest shared
    have member : id ∈ sharedIds own theirs := by
      rw [shared]
      exact List.mem_cons_self
    have known := (List.mem_filter.mp ((List.mem_insertionSort _).mp member)).2
    obtain ⟨remote, found⟩ := Option.isSome_iff_exists.mp known
    have same := ours id cipherSet chosen
    refine ⟨remote, same ▸ found, identifier_injective ?_⟩
    rw [← keyed id remote found, same]

section Keeping
variable {prim : Primitives} {switch after : THSwitch} {unsent : Option LineRef}

theorem wellformed_store {store : Store} (wellformed : Wellformed unsent switch)
    (known : OpenAuthentication.Sound store) (lines : store.lines = switch.store.lines)
    (keys : ∀ ref, IdKeyed (store.identities ref).cipherParts)
    (current : ∀ ref line, (store.identities ref).currentLine = some line →
      (switch.store.identities ref).currentLine = some line) :
    Wellformed unsent { switch with store := store } where
  known := known
  ownKeys := wellformed.ownKeys
  keys := keys
  infos := lines ▸ wellformed.infos
  cached := by
    intro ref line held sent info
    rw [lines] at info
    exact wellformed.cached ref line (current ref line held) sent info

/-- A change of one identity that leaves its name and gives it no line. -/
theorem wellformed_updateIdentity (wellformed : Wellformed unsent switch) (ref : IdentityRef)
    (change : THIdentity → THIdentity)
    (named : (change (switch.store.identities ref)).hashnameCache =
      (switch.store.identities ref).hashnameCache)
    (lined : (change (switch.store.identities ref)).currentLine =
        (switch.store.identities ref).currentLine ∨
      (change (switch.store.identities ref)).currentLine = none)
    (keyed : IdKeyed (change (switch.store.identities ref)).cipherParts) :
    Wellformed unsent (switch.updateStore fun store => store.updateIdentity ref change) := by
  refine wellformed_store wellformed
    (OpenAuthentication.sound_updateIdentity wellformed.known ref change named lined) rfl ?_ ?_
  · intro other
    by_cases same : other = ref
    · rw [same, identities_updateIdentity_same]
      exact keyed
    · rw [identities_updateIdentity_other _ _ _ _ same]
      exact wellformed.keys other
  · intro other line held
    by_cases same : other = ref
    · subst same
      rw [identities_updateIdentity_same] at held
      rcases lined with kept | dropped
      · rw [← kept]
        exact held
      · rw [dropped] at held
        cases held
    · rwa [identities_updateIdentity_other _ _ _ _ same] at held

/-- A new identity comes without a line. -/
theorem wellformed_allocIdentity (wellformed : Wellformed unsent switch) {identity : THIdentity}
    (unlined : identity.currentLine = none) (keyed : IdKeyed identity.cipherParts)
    (known : OpenAuthentication.Sound (switch.store.allocIdentity identity)) :
    Wellformed unsent (switch.updateStore fun store => store.allocIdentity identity) := by
  refine wellformed_store wellformed known rfl ?_ ?_
  · intro ref
    by_cases same : ref = switch.store.nextIdentity
    · rw [same, identities_allocIdentity_same]
      exact keyed
    · simpa [Store.allocIdentity, same] using wellformed.keys ref
  · intro ref line held
    by_cases same : ref = switch.store.nextIdentity
    · rw [same, identities_allocIdentity_same, unlined] at held
      cases held
    · simpa [Store.allocIdentity, same] using held

/-- A change of one line in place. -/
theorem wellformed_updateLine (wellformed : Wellformed unsent switch) (line : LineRef)
    (change : THLine → THLine)
    (owner : (change (switch.store.lines line)).toIdentity = (switch.store.lines line).toIdentity)
    (infos : ∀ info, (change (switch.store.lines line)).cipherSetInfo = some info →
      OfOneClass info)
    (present : (change (switch.store.lines line)).cipherSetInfo.isSome →
      (switch.store.lines line).cipherSetInfo.isSome ∨ (switch.cachedOpen line).isSome) :
    Wellformed unsent (switch.updateStore fun store => store.updateLine line change) where
  known := OpenAuthentication.sound_updateLine wellformed.known line change owner
  ownKeys := wellformed.ownKeys
  keys := wellformed.keys
  infos := by
    intro ref info held
    refine forall_updateLine switch.store
      (fun _ line => line.cipherSetInfo = some info → OfOneClass info) (infos info)
      (fun other _ => wellformed.infos other info) ref held
  cached := by
    intro ref current held sent
    have before := wellformed.cached ref current held sent
    refine forall_updateLine switch.store
      (fun current line => ((switch.store.lines current).cipherSetInfo.isSome →
        (switch.cachedOpen current).isSome) → line.cipherSetInfo.isSome →
        (switch.cachedOpen current).isSome) ?_ (fun _ _ before => before) current before
    intro before info
    rcases present info with known | cached
    · exact before known
    · exact cached

/-! ## Sending an open -/

/-- The line with its own half complete, as an open leaves it. -/
def prepare (info : THCipherSetLineInfo) (lineId : String) (line : THLine) : THLine :=
  { line with cipherSetInfo := some info, inLineId := some lineId }

def chosenFor (switch : THSwitch) (line : LineRef) : Option THCipherSet :=
  chooseCipherSet switch.cipherParts
    (switch.store.identities (switch.toIdentity line)).cipherParts

theorem withLineKeys_class {csid : CipherSetId} {lineKeys : KeyPair} {info : THCipherSetLineInfo}
    {result : THCipherSetLineInfo × KeyPair}
    (placed : withLineKeys csid lineKeys info = .ok result) : csidOf info = csid := by
  cases info with
  | info2a info =>
      simp only [withLineKeys] at placed
      split at placed
      · rename_i same
        exact same.symm
      · cases placed
  | info3a info =>
      simp only [withLineKeys] at placed
      split at placed
      · rename_i same
        exact same.symm
      · cases placed

theorem ofOneClass_equipped {line : THLine} {info : THCipherSetLineInfo}
    (stored : line.cipherSetInfo = some info) (class_ : OfOneClass info) :
    Equipped (fun _ => True) (csidOf info) line := by
  obtain ⟨cipherSet, held, same⟩ := class_
  exact ⟨info, stored, rfl, by rw [held, Option.map_some, same], fun _ _ => trivial⟩

theorem equipped_ofOneClass {csid : CipherSetId} {line : THLine} {info : THCipherSetLineInfo}
    (stored : line.cipherSetInfo = some info) (equipped : Equipped (fun _ => True) csid line) :
    OfOneClass info := by
  obtain ⟨held, same, class_, cipherSet, _⟩ := equipped
  rw [stored] at same
  cases same
  obtain ⟨set, present, alike⟩ := Option.map_eq_some_iff.mp cipherSet
  exact ⟨set, present, alike.trans class_.symm⟩

/-- An open is generated with the set both sides share, or not at all. -/
theorem generateOpen_ok {fresh : Fresh} {line : LineRef} {opened : Option Opened}
    (wellformed : Wellformed unsent switch)
    (generated : generateOpen prim switch fresh line = .ok (after, opened)) :
    (after = switch ∧ opened = none ∧ chosenFor switch line = none) ∨
      ∃ info lineId, opened.isSome ∧ OfOneClass info ∧
        Prepares (switch.store.lines line) (prepare info lineId (switch.store.lines line)) ∧
        after = switch.updateStore fun store => store.updateLine line (prepare info lineId) := by
  unfold generateOpen at generated
  dsimp only at generated
  split at generated
  · rename_i unshared
    cases generated
    exact Or.inl ⟨rfl, rfl, unshared⟩
  · rename_i own chosen
    obtain ⟨remote, known, class_⟩ := chosen_partner wellformed.ownKeys (wellformed.keys _) chosen
    rw [known] at generated
    obtain ⟨⟨info, keys⟩, placed, generated⟩ := (bind_ok_iff _ _ _).mp generated
    cases generated
    have ready : (switch.store.lines line).cipherSetInfo = none ∨
        Equipped (fun _ => True) own.csid (switch.store.lines line) := by
      cases stored : (switch.store.lines line).cipherSetInfo with
      | none => exact Or.inl rfl
      | some before =>
          rw [stored] at placed
          have same := withLineKeys_class placed
          exact Or.inr (same ▸ ofOneClass_equipped stored (wellformed.infos line before stored))
    obtain ⟨prepares, equipped, _⟩ := prepared_ok (fun _ => True) class_ trivial ready placed rfl
    exact Or.inr ⟨info, _, rfl, equipped_ofOneClass rfl equipped, prepares, rfl⟩

theorem transmit_sent (switch : THSwitch) (line : LineRef) (opened : Opened) :
    ∃ sent, transmit switch line opened = { switch with sent := sent } := by
  unfold transmit
  dsimp only
  split
  · exact ⟨_, rfl⟩
  · exact ⟨switch.sent, rfl⟩

/-- Sending an open either leaves everything but what was sent, or completes
the own half of the line and caches the open. -/
theorem sendOpen_cases {fresh : Fresh} {line : LineRef} (wellformed : Wellformed unsent switch)
    (sending : sendOpen prim switch fresh line = .ok after) :
    ∃ sent,
      (((switch.cachedOpen line).isSome ∨ chosenFor switch line = none) ∧
        after = { switch with sent := sent }) ∨
      ∃ info lineId opened, OfOneClass info ∧
        Prepares (switch.store.lines line) (prepare info lineId (switch.store.lines line)) ∧
        after = { (switch.updateStore fun store => store.updateLine line (prepare info lineId)) with
          cachedOpen := Function.update switch.cachedOpen line (some opened)
          sent := sent } := by
  unfold sendOpen at sending
  split at sending
  · rename_i opened cached
    cases sending
    obtain ⟨sent, same⟩ := transmit_sent switch line opened
    exact ⟨sent, Or.inl ⟨Or.inl (by rw [cached]; rfl), same⟩⟩
  · rename_i uncached
    obtain ⟨⟨prepared, opened⟩, generated, sending⟩ := (bind_ok_iff _ _ _).mp sending
    rcases generateOpen_ok wellformed generated with
      ⟨rfl, rfl, unshared⟩ | ⟨info, lineId, built, class_, prepares, rfl⟩
    · cases sending
      refine ⟨prepared.sent, Or.inl ⟨Or.inr unshared, ?_⟩⟩
      rw [← uncached, Function.update_eq_self]
    · obtain ⟨opened, rfl⟩ := Option.isSome_iff_exists.mp built
      cases sending
      obtain ⟨sent, same⟩ := transmit_sent
        { (switch.updateStore fun store => store.updateLine line (prepare info lineId)) with
          cachedOpen := Function.update switch.cachedOpen line (some opened) } line opened
      exact ⟨sent, Or.inr ⟨info, lineId, opened, class_, prepares, same⟩⟩

theorem wellformed_sendOpen {fresh : Fresh} {line : LineRef}
    (wellformed : Wellformed unsent switch)
    (expected : unsent = none ∨ (unsent = some line ∧ (chosenFor switch line).isSome))
    (sending : sendOpen prim switch fresh line = .ok after) : Wellformed none after := by
  have others : ∀ ref current, (switch.store.identities ref).currentLine = some current →
      current ≠ line → (switch.store.lines current).cipherSetInfo.isSome →
      (switch.cachedOpen current).isSome := by
    intro ref current held other
    refine wellformed.cached ref current held ?_
    rcases expected with rfl | ⟨rfl, _⟩
    · exact Option.some_ne_none current
    · exact fun same => other (Option.some.inj same)
  obtain ⟨sent, ⟨ready, rfl⟩ | ⟨info, lineId, opened, class_, prepares, rfl⟩⟩ :=
    sendOpen_cases wellformed sending
  · refine { wellformed with cached := ?_ }
    intro ref current held _ present
    by_cases same : current = line
    · subst same
      rcases ready with cached | unshared
      · exact cached
      · rcases expected with rfl | ⟨rfl, chosen⟩
        · exact wellformed.cached ref current held (Option.some_ne_none current) present
        · rw [unshared] at chosen
          cases chosen
    · exact others ref current held same present
  · have cached : Wellformed none { switch with
        cachedOpen := Function.update switch.cachedOpen line (some opened) } := by
      refine { wellformed with cached := ?_ }
      intro ref current held _ present
      by_cases same : current = line
      · subst same
        simp
      · simpa only [Function.update_of_ne same] using others ref current held same present
    have prepared := wellformed_updateLine cached line (prepare info lineId) prepares.owner
      (by rintro _ ⟨⟩; exact class_) (by simp)
    exact { prepared with }

/-! ## Finalizing and taking a line -/

/-- The info is of the class it was, on the cipher set it was. -/
def Alike (before after : Option THCipherSetLineInfo) : Prop :=
  after.map csidOf = before.map csidOf ∧ after.bind cipherSetOf = before.bind cipherSetOf

theorem alike_ofOneClass {before after : Option THCipherSetLineInfo} (alike : Alike before after)
    (class_ : ∀ info, before = some info → OfOneClass info) :
    ∀ info, after = some info → OfOneClass info := by
  rintro info rfl
  obtain ⟨classes, sets⟩ := alike
  cases before with
  | none => cases classes
  | some before =>
      obtain ⟨cipherSet, held, same⟩ := class_ before rfl
      refine ⟨cipherSet, sets.trans held, same.trans ?_⟩
      exact (Option.some.inj classes).symm

theorem alike_isSome {before after : Option THCipherSetLineInfo} (alike : Alike before after) :
    after.isSome = before.isSome := by
  rw [← Option.isSome_map (f := csidOf), alike.1, Option.isSome_map]

theorem setRemoteKey_alike {csid : CipherSetId} {told : Data}
    {before after : Option THCipherSetLineInfo}
    (taken : setRemoteKey csid told before = .ok after) : Alike before after := by
  unfold setRemoteKey at taken
  split at taken
  · cases taken
    exact ⟨rfl, rfl⟩
  · split at taken
    · cases taken
      exact ⟨rfl, rfl⟩
    · cases taken
  · split at taken
    · cases taken
      exact ⟨rfl, rfl⟩
    · cases taken

theorem finalize2a_alike {lineKeys : KeyPair} {line done : THLine} {info : THCipherSetLineInfo2a}
    (finalized : finalize2a prim lineKeys line info = .ok done) :
    ∃ after, done = { line with cipherSetInfo := after } ∧ Alike (some (.info2a info)) after := by
  unfold finalize2a at finalized
  dsimp only at finalized
  split at finalized
  · cases finalized
    exact ⟨_, rfl, rfl, rfl⟩
  · obtain ⟨_, _, finalized⟩ := (bind_ok_iff _ _ _).mp finalized
    obtain ⟨_, _, finalized⟩ := (bind_ok_iff _ _ _).mp finalized
    cases finalized
    exact ⟨_, rfl, rfl, rfl⟩

theorem finalize3a_alike {line done : THLine} {info : THCipherSetLineInfo3a}
    (finalized : finalize3a prim line info = .ok done) :
    ∃ after, done = { line with cipherSetInfo := after } ∧ Alike (some (.info3a info)) after := by
  unfold finalize3a at finalized
  split at finalized
  · cases finalized
  · obtain ⟨_, _, finalized⟩ := (bind_ok_iff _ _ _).mp finalized
    obtain ⟨_, _, finalized⟩ := (bind_ok_iff _ _ _).mp finalized
    cases finalized
    exact ⟨_, rfl, rfl, rfl⟩

theorem finalizeLineKeys_alike {lineKeys : KeyPair} {line done : THLine}
    (finalized : finalizeLineKeys prim lineKeys line = .ok done) :
    ∃ info, done = { line with cipherSetInfo := info } ∧ Alike line.cipherSetInfo info := by
  have unchanged : line = done →
      ∃ info, done = { line with cipherSetInfo := info } ∧ Alike line.cipherSetInfo info := by
    rintro rfl
    exact ⟨line.cipherSetInfo, rfl, rfl, rfl⟩
  unfold finalizeLineKeys at finalized
  split at finalized
  · exact unchanged (Except.ok.inj finalized)
  · rename_i stored
    split at finalized
    · exact unchanged (Except.ok.inj finalized)
    · split at finalized
      · exact stored ▸ finalize2a_alike finalized
      · cases finalized
  · rename_i stored
    split at finalized
    · exact unchanged (Except.ok.inj finalized)
    · split at finalized
      · exact stored ▸ finalize3a_alike finalized
      · cases finalized

/-- The line is finalized in place, opened and registered under its id. -/
theorem openAndRegister_cases {lineKeys : KeyPair} {line : LineRef}
    (registering : openAndRegister prim switch lineKeys line = .ok after) :
    ∃ lineId done next, (switch.store.lines line).inLineId = some lineId ∧
      finalizeLineKeys prim lineKeys { switch.store.lines line with nextChannelId := next } =
        .ok done ∧
      after = { (switch.updateStore fun store =>
          store.updateLine line fun _ => { done with isOpen := true }) with
        openLines := switch.openLines.insert lineId line } := by
  unfold openAndRegister at registering
  obtain ⟨done, finalized, registering⟩ := (bind_ok_iff _ _ _).mp registering
  split at registering
  · cases registering
  · rename_i lineId named
    cases registering
    exact ⟨lineId, done, _, named, finalized, rfl⟩

theorem wellformed_openAndRegister {lineKeys : KeyPair} {line : LineRef}
    (wellformed : Wellformed unsent switch)
    (registering : openAndRegister prim switch lineKeys line = .ok after) :
    Wellformed unsent after := by
  obtain ⟨lineId, done, next, _, finalized, rfl⟩ := openAndRegister_cases registering
  obtain ⟨info, rfl, alike⟩ := finalizeLineKeys_alike finalized
  have kept := alike_isSome alike
  have finished := wellformed_updateLine wellformed line
    (fun _ => { switch.store.lines line with
      nextChannelId := next, cipherSetInfo := info, isOpen := true })
    rfl (alike_ofOneClass alike (wellformed.infos line))
    (fun present => Or.inl (kept.symm.trans present))
  exact { finished with }

def unregister (lineId : Option String) (openLines : Dictionary String LineRef) :
    Dictionary String LineRef :=
  match lineId with
  | none => openLines
  | some lineId => openLines.erase lineId

theorem forgetLine_eq (switch : THSwitch) (line : LineRef) :
    forgetLine switch line = { switch with
      openLines := unregister (switch.store.lines line).inLineId switch.openLines } := by
  unfold forgetLine
  cases (switch.store.lines line).inLineId <;> rfl

/-- The line is no longer the current one of its identity. -/
def leave (line : LineRef) (store : Store) : Store :=
  if (store.identities (store.lines line).toIdentity).currentLine = some line then
    store.updateIdentity (store.lines line).toIdentity fun identity =>
      { identity with currentLine := none }
  else store

theorem closeLine_eq (switch : THSwitch) (line : LineRef) :
    closeLine switch line = { switch with
      store := leave line switch.store
      cachedOpen := Function.update switch.cachedOpen line none
      openLines := unregister (switch.store.lines line).inLineId switch.openLines } := by
  unfold closeLine leave toIdentity
  simp only [forgetLine_eq]
  split <;> rfl

theorem lines_leave (store : Store) (line : LineRef) : (leave line store).lines = store.lines := by
  unfold leave
  split <;> rfl

theorem sound_leave {store : Store} (sound : OpenAuthentication.Sound store) (line : LineRef) :
    OpenAuthentication.Sound (leave line store) := by
  unfold leave
  split
  · exact OpenAuthentication.sound_updateIdentity sound _ _ rfl (Or.inr rfl)
  · exact sound

theorem cipherParts_leave (store : Store) (line : LineRef) (ref : IdentityRef) :
    ((leave line store).identities ref).cipherParts = (store.identities ref).cipherParts := by
  unfold leave
  split
  · by_cases same : ref = (store.lines line).toIdentity
    · simp [same]
    · rw [identities_updateIdentity_other _ _ _ _ same]
  · rfl

/-- What is current then, was so before, and is another line. -/
theorem currentLine_leave {store : Store} (sound : OpenAuthentication.Sound store)
    {line current : LineRef} {ref : IdentityRef}
    (held : ((leave line store).identities ref).currentLine = some current) :
    current ≠ line ∧ (store.identities ref).currentLine = some current := by
  unfold leave at held
  split at held
  · by_cases same : ref = (store.lines line).toIdentity
    · simp [same] at held
    · rw [identities_updateIdentity_other _ _ _ _ same] at held
      refine ⟨?_, held⟩
      rintro rfl
      exact same (sound.owned ref current held).2.symm
  · rename_i other
    refine ⟨?_, held⟩
    rintro rfl
    rw [(sound.owned ref current held).2] at other
    exact other held

theorem wellformed_closeLine (wellformed : Wellformed unsent switch) (line : LineRef) :
    Wellformed unsent (closeLine switch line) := by
  rw [closeLine_eq]
  refine ⟨sound_leave wellformed.known line, wellformed.ownKeys, ?_, ?_, ?_⟩
  · intro ref
    rw [cipherParts_leave]
    exact wellformed.keys ref
  · intro ref info held
    rw [lines_leave] at held
    exact wellformed.infos ref info held
  · intro ref current held sent present
    rw [lines_leave] at present
    obtain ⟨other, before⟩ := currentLine_leave wellformed.known held
    simpa only [Function.update_of_ne other] using
      wellformed.cached ref current before sent present

theorem wellformed_closeChannels (wellformed : Wellformed unsent switch) (ref : IdentityRef) :
    Wellformed unsent (switch.updateStore (closeChannels ref)) := by
  have closed := wellformed_updateIdentity wellformed ref
    (fun identity => { identity with channels := .empty }) rfl (Or.inl rfl) (wellformed.keys ref)
  exact ⟨OpenAuthentication.sound_closeChannels wellformed.known ref, closed.ownKeys, closed.keys,
    closed.infos, closed.cached⟩

theorem wellformed_resetIdentity (wellformed : Wellformed unsent switch) (ref : IdentityRef) :
    Wellformed unsent (resetIdentity switch ref) := by
  have reset : ∀ closed, Wellformed unsent closed →
      Wellformed unsent (closed.updateStore (Identity.reset ref)) := by
    intro closed kept
    exact wellformed_updateIdentity (wellformed_closeChannels kept ref) ref _ rfl (Or.inr rfl)
      idKeyed_empty
  unfold resetIdentity
  dsimp only
  split
  · exact reset switch wellformed
  · exact reset _ (wellformed_closeLine wellformed _)

theorem wellformed_lineTimeout (wellformed : Wellformed unsent switch) (job : Nat)
    (ref : IdentityRef) : Wellformed unsent (lineTimeout switch job ref) := by
  unfold lineTimeout
  dsimp only
  split
  · exact wellformed
  · have dropped := wellformed_updateIdentity wellformed ref
      (fun identity => { identity with currentLine := none }) rfl (Or.inr rfl)
      (wellformed.keys ref)
    exact { dropped with }

theorem wellformed_forsake (wellformed : Wellformed unsent switch) (ref : IdentityRef) :
    Wellformed unsent (forsake switch ref) := by
  unfold forsake
  split
  · exact wellformed
  · rename_i line _
    have closed := wellformed_closeChannels (wellformed_closeLine wellformed line) ref
    exact wellformed_updateIdentity closed ref _ rfl (Or.inl rfl) (closed.keys ref)

/-- A new line of an identity, for which no open has been generated. -/
theorem wellformed_newLine (wellformed : Wellformed none switch) (sender : IdentityRef)
    (line : THLine) (owner : line.toIdentity = sender)
    (infos : ∀ info, line.cipherSetInfo = some info → OfOneClass info) :
    Wellformed (some switch.store.nextLine) (switch.updateStore fun store =>
      (store.allocLine line).updateIdentity sender fun identity =>
        { identity with currentLine := some store.nextLine }) where
  known := OpenAuthentication.sound_newLine wellformed.known sender line owner
  ownKeys := wellformed.ownKeys
  keys := by
    intro ref
    by_cases same : ref = sender
    · subst same
      simpa [updateStore, Store.allocLine] using wellformed.keys ref
    · simpa [updateStore, Store.updateIdentity, Store.allocLine, same] using wellformed.keys ref
  infos := by
    intro ref info held
    by_cases same : ref = switch.store.nextLine
    · subst same
      exact infos info (by simpa [updateStore] using held)
    · exact wellformed.infos ref info (by simpa [updateStore, Store.allocLine, same] using held)
  cached := by
    intro ref current held sent present
    have before : (switch.store.identities ref).currentLine = some current := by
      by_cases same : ref = sender
      · subst same
        simp only [updateStore, identities_updateIdentity_same] at held
        exact absurd held.symm sent
      · simpa [updateStore, Store.updateIdentity, Store.allocLine, same] using held
    have older : current ≠ switch.store.nextLine :=
      Nat.ne_of_lt (wellformed.known.owned ref current before).1
    refine wellformed.cached ref current before (Option.some_ne_none current) ?_
    simpa [updateStore, Store.allocLine, older] using present

/-- An unsent line without a line info is as good as any. -/
theorem wellformed_bare {line : LineRef} (wellformed : Wellformed (some line) switch)
    (bare : (switch.store.lines line).cipherSetInfo = none) : Wellformed none switch := by
  refine { wellformed with cached := ?_ }
  intro ref current held _ present
  refine wellformed.cached ref current held ?_ present
  rintro ⟨⟩
  rw [bare] at present
  cases present

theorem wellformed_withCurrentLine (wellformed : Wellformed none switch) (ref : IdentityRef) :
    Wellformed none (withCurrentLine switch ref).1 := by
  unfold withCurrentLine
  split
  · exact wellformed
  · refine wellformed_bare (wellformed_newLine wellformed ref (.new ref) rfl ?_) ?_
    · rintro info ⟨⟩
    · simp [updateStore, THLine.new]

/-! ## Accepted opens -/

/-- The line an open gives is the current one of the sender. It was before, or
it is new and its own open is still to be generated. -/
structure Taken (switch : THSwitch) (line : LineRef) : Prop where
  current : (switch.store.identities (switch.toIdentity line)).currentLine = some line
  ready : Wellformed none switch ∨
    (Wellformed (some line) switch ∧ (switch.store.lines line).inLineId = none ∧
      ∃ own info, chosenFor switch line = some own ∧
        (switch.store.lines line).cipherSetInfo = some info ∧ csidOf info = own.csid)

/-- The open is authentic, no older than the line and not the one it has. -/
def Passes (opened : Opened) (current : THLine) : Prop :=
  opened.authentic = .ok true ∧ ∃ time, readNumber (opened.inner.objectForKey "at") = .ok time ∧
    olderThanCurrent (some current) time = false ∧
    reopensCurrent (some current) (opened.inner.objectForKey "line") time = .ok false

theorem newLineInfo_class (cipherSet : THCipherSet) (remoteKey : Data) (lineKeys : KeyPair) :
    csidOf (newLineInfo cipherSet remoteKey lineKeys) = cipherSet.csid ∧
      cipherSetOf (newLineInfo cipherSet remoteKey lineKeys) = some cipherSet := by
  unfold newLineInfo
  split
  · rename_i class_
    exact ⟨class_.symm, rfl⟩
  · rename_i class_
    exact ⟨class_.symm, rfl⟩

theorem takeLine_taken {opened : Opened} {lineKeys : KeyPair} {sender : IdentityRef}
    {lineId : Option Json} {time : Nat} {store : Store} {line : LineRef} {own : THCipherSet}
    (wellformed : Wellformed none switch) (class_ : own.csid = opened.incomingCS.csid)
    (chosen : chooseCipherSet switch.cipherParts (switch.store.identities sender).cipherParts =
      some own)
    (taken : takeLine opened lineKeys sender lineId time switch.store = .ok (store, some line)) :
    Taken { switch with store := store } line := by
  unfold takeLine at taken
  split at taken
  · rename_i held
    obtain ⟨info, told, same⟩ := (bind_ok_iff _ _ _).mp taken
    cases same
    have alike := setRemoteKey_alike told
    have kept := wellformed_updateLine wellformed line
      (fun line => handleOpen lineId time { line with cipherSetInfo := info }) rfl
      (alike_ofOneClass alike (wellformed.infos line))
      (fun present => Or.inl ((alike_isSome alike).symm.trans present))
    refine ⟨?_, Or.inl kept⟩
    have owner := (wellformed.known.owned sender line held).2
    simpa [toIdentity, handleOpen, Store.updateLine, owner] using held
  · cases taken
    obtain ⟨newClass, newSet⟩ := newLineInfo_class opened.incomingCS opened.remoteKey lineKeys
    have grown := wellformed_newLine wellformed sender
      (handleOpen lineId time { THLine.new sender with
        cipherSetInfo := some (newLineInfo opened.incomingCS opened.remoteKey lineKeys) }) rfl
      (by rintro info ⟨⟩; exact ⟨_, newSet, newClass.symm⟩)
    refine ⟨by simp [toIdentity, handleOpen, THLine.new], Or.inr ⟨grown, ?_, own,
      newLineInfo opened.incomingCS opened.remoteKey lineKeys, ?_, ?_, newClass.trans class_.symm⟩⟩
    · simp [handleOpen, THLine.new]
    · simpa [chosenFor, toIdentity, handleOpen, THLine.new, Store.allocLine] using chosen
    · simp [handleOpen]

theorem takeOpen_taken {opened : Opened} {lineKeys : KeyPair} {sender : IdentityRef}
    {store : Store} {line : LineRef} {own : THCipherSet} (wellformed : Wellformed none switch)
    (class_ : own.csid = opened.incomingCS.csid)
    (chosen : chooseCipherSet switch.cipherParts (switch.store.identities sender).cipherParts =
      some own)
    (taken : takeOpen opened lineKeys sender switch.store = .ok (store, some line)) :
    Taken { switch with store := store } line := by
  obtain ⟨time, lineId, _, _, _, _, _, taken⟩ :=
    (takeOpen_accepted_iff opened lineKeys sender switch.store store line).mp taken
  split at taken
  · have closed := wellformed_closeChannels wellformed sender
    have given := takeLine_taken closed class_
      (by simpa [updateStore, closeChannels] using chosen) taken
    exact given
  · exact takeLine_taken wellformed class_ chosen taken

theorem wellformed_cacheIdentity (wellformed : Wellformed unsent switch) (hashname : String)
    {identity : THIdentity} (unlined : identity.currentLine = none)
    (keyed : IdKeyed identity.cipherParts) :
    Wellformed unsent (switch.updateStore fun store => store.cacheIdentity hashname identity) := by
  refine wellformed_store wellformed
    (OpenAuthentication.sound_cacheIdentity wellformed.known hashname identity unlined) rfl ?_ ?_
  · intro ref
    by_cases same : ref = switch.store.nextIdentity
    · simpa [Store.cacheIdentity, Store.allocIdentity, same] using keyed
    · simpa [Store.cacheIdentity, Store.allocIdentity, same] using wellformed.keys ref
  · intro ref line held
    by_cases same : ref = switch.store.nextIdentity
    · simp [Store.cacheIdentity, Store.allocIdentity, same, unlined] at held
    · simpa [Store.cacheIdentity, Store.allocIdentity, same] using held

/-- A known identity takes the keys, a new one is made of them if they are its own. -/
theorem wellformed_identityFromParts (wellformed : Wellformed unsent switch)
    (parts : Option Parts) (cipherSet : THCipherSet) :
    Wellformed unsent { switch with
      store := (identityFromParts prim.sha256 parts cipherSet switch.store).1 } := by
  cases found : switch.store.identityCache.lookup (hashnameForParts prim.sha256 parts) with
  | some ref =>
      rw [identityFromParts_known prim.sha256 cipherSet found]
      exact wellformed_updateIdentity wellformed ref (THIdentity.setKeys parts cipherSet) rfl
        (Or.inl rfl) (idKeyed_single cipherSet)
  | none =>
      by_cases belongs : keyMatches prim.sha256 parts cipherSet
      · rw [identityFromParts_new prim.sha256 found belongs]
        exact wellformed_cacheIdentity wellformed _ rfl (idKeyed_single cipherSet)
      · rw [identityFromParts_foreign prim.sha256 found belongs]
        exact wellformed

theorem wellformed_identityFromHashname (wellformed : Wellformed unsent switch)
    (hashname : String) :
    Wellformed unsent { switch with
      store := (Identity.identityFromHashname hashname switch.store).1 } := by
  unfold Identity.identityFromHashname
  split
  · exact wellformed_cacheIdentity wellformed hashname rfl idKeyed_empty
  · exact wellformed

/-- An open under a set the switch has gives a line it can answer on. -/
theorem acceptOpen_taken {opened : Opened} {lineKeys : KeyPair} {store : Store}
    {given : Option LineRef} (wellformed : Wellformed none switch)
    (held : (switch.cipherParts.lookup opened.incomingCS.csid.identifier).isSome)
    (accepted : acceptOpen prim opened lineKeys switch.store = .ok (store, given)) :
    (given = none ∧ Wellformed none { switch with store := store }) ∨
      ∃ line, given = some line ∧ Taken { switch with store := store } line := by
  obtain ⟨parts, readParts, _⟩ := (bind_ok_iff _ _ _).mp accepted
  obtain ⟨own, owned⟩ := Option.isSome_iff_exists.mp held
  have single := chooseCipherSet_single owned opened.incomingCS
  have class_ : own.csid = opened.incomingCS.csid :=
    (identifier_injective (wellformed.ownKeys _ own owned)).symm
  have looked := @wellformed_identityFromParts prim switch none wellformed parts
    opened.incomingCS
  have took : ∀ reached sender, Wellformed none { switch with store := reached } →
      (reached.identities sender).cipherParts =
        .single opened.incomingCS.csid.identifier opened.incomingCS →
      takeOpen opened lineKeys sender reached = .ok (store, given) →
      (given = none ∧ Wellformed none { switch with store := store }) ∨
        ∃ line, given = some line ∧ Taken { switch with store := store } line := by
    intro reached sender kept keyed taken
    cases given with
    | none =>
        obtain ⟨rfl, _⟩ := (takeOpen_rejected_iff opened lineKeys sender reached store).mp taken
        exact Or.inl ⟨rfl, kept⟩
    | some line =>
        have chosen : chooseCipherSet switch.cipherParts (reached.identities sender).cipherParts =
            some own := by
          rw [keyed, single]
        have took := takeOpen_taken kept class_ chosen taken
        exact Or.inr ⟨line, rfl, took⟩
  cases found : switch.store.identityCache.lookup (hashnameForParts prim.sha256 parts) with
  | some ref =>
      rw [OpenAuthentication.acceptOpen_known prim lineKeys readParts found] at accepted
      rw [identityFromParts_known prim.sha256 _ found] at looked
      exact took _ ref looked (by simp [THIdentity.setKeys]) accepted
  | none =>
      by_cases belongs : keyMatches prim.sha256 parts opened.incomingCS
      · rw [OpenAuthentication.acceptOpen_new prim lineKeys readParts found belongs] at accepted
        rw [identityFromParts_new prim.sha256 found belongs] at looked
        exact took _ _ looked (by simp [Store.cacheIdentity, THIdentity.setKeys]) accepted
      · rw [OpenAuthentication.acceptOpen_foreign prim lineKeys readParts found belongs] at accepted
        cases accepted
        exact Or.inl ⟨rfl, wellformed⟩

/-! ## The rest of `processOpen:` -/

variable (prim) in
/-- The first job queued for the hashname of the identity. -/
def pendingFor (switch : THSwitch) (ref : IdentityRef) : Option THPendingJob :=
  switch.pendingJobs.find? fun job => samePeer prim switch job.pending ref

variable (prim) in
/-- The path is taken, the line out of `openLines` and that job out of the queue. -/
def unqueued (switch : THSwitch) (returnPath : Option THPath) (line : LineRef) : THSwitch :=
  { (switch.updateStore fun store =>
      store.updateIdentity (switch.toIdentity line) (usePath returnPath)) with
    openLines := unregister (switch.store.lines line).inLineId switch.openLines
    pendingJobs := switch.pendingJobs.eraseP fun job =>
      samePeer prim switch job.pending (switch.toIdentity line) }

theorem usePath_kept (returnPath : Option THPath) (identity : THIdentity) :
    (usePath returnPath identity).hashnameCache = identity.hashnameCache ∧
      (usePath returnPath identity).parts = identity.parts ∧
      (usePath returnPath identity).cipherParts = identity.cipherParts ∧
      (usePath returnPath identity).currentLine = identity.currentLine := by
  cases returnPath <;> exact ⟨rfl, rfl, rfl, rfl⟩

theorem hashname_usePath (switch : THSwitch) (returnPath : Option THPath)
    (sender ref : IdentityRef) :
    ((switch.store.updateIdentity sender (usePath returnPath)).identities ref).hashname
      prim.sha256 = (switch.store.identities ref).hashname prim.sha256 := by
  by_cases same : ref = sender
  · rw [same, identities_updateIdentity_same]
    obtain ⟨cached, parts, _⟩ := usePath_kept returnPath (switch.store.identities sender)
    unfold THIdentity.hashname
    rw [cached, parts]
  · rw [identities_updateIdentity_other _ _ _ _ same]

theorem completeOpen_eq (switch : THSwitch) (fresh : Fresh) (returnPath : Option THPath)
    (line : LineRef) :
    completeOpen prim switch fresh returnPath line =
      match pendingFor prim switch (switch.toIdentity line), (switch.store.lines line).inLineId with
      | some job, some _ =>
          match ((unqueued prim switch returnPath line).store.identities
            job.pending).currentLine with
          | none => .error .nilArgument
          | some current =>
              openAndRegister prim (unqueued prim switch returnPath line) fresh.lineKeys current
      | _, _ =>
          sendOpen prim (unqueued prim switch returnPath line) fresh line >>= fun answered =>
            openAndRegister prim answered fresh.lineKeys line := by
  unfold completeOpen
  simp only [forgetLine_eq, samePeer, updateStore, hashname_usePath]
  rfl

/-- An open that answers one of ours finishes the line of the pending identity.
Any other is answered by an open of the line itself. -/
theorem completeOpen_cases {fresh : Fresh} {returnPath : Option THPath} {line : LineRef}
    (completed : completeOpen prim switch fresh returnPath line = .ok after) :
    (∃ job current, pendingFor prim switch (switch.toIdentity line) = some job ∧
      (switch.store.lines line).inLineId.isSome ∧
      ((unqueued prim switch returnPath line).store.identities job.pending).currentLine =
        some current ∧
      openAndRegister prim (unqueued prim switch returnPath line) fresh.lineKeys current =
        .ok after) ∨
    ((pendingFor prim switch (switch.toIdentity line) = none ∨
        (switch.store.lines line).inLineId = none) ∧
      ∃ answered, sendOpen prim (unqueued prim switch returnPath line) fresh line = .ok answered ∧
        openAndRegister prim answered fresh.lineKeys line = .ok after) := by
  rw [completeOpen_eq] at completed
  cases job : pendingFor prim switch (switch.toIdentity line) with
  | none =>
      rw [job] at completed
      exact Or.inr ⟨Or.inl rfl, (bind_ok_iff _ _ _).mp completed⟩
  | some job' =>
      cases named : (switch.store.lines line).inLineId with
      | none =>
          rw [job, named] at completed
          exact Or.inr ⟨Or.inr rfl, (bind_ok_iff _ _ _).mp completed⟩
      | some lineId =>
          rw [job, named] at completed
          dsimp only at completed
          split at completed
          · cases completed
          · rename_i current held
            exact Or.inl ⟨job', current, rfl, rfl, held, completed⟩

theorem wellformed_unqueued (wellformed : Wellformed unsent switch)
    (returnPath : Option THPath) (line : LineRef) :
    Wellformed unsent (unqueued prim switch returnPath line) := by
  obtain ⟨named, _, keys, current⟩ :=
    usePath_kept returnPath (switch.store.identities (switch.toIdentity line))
  have pathed := wellformed_updateIdentity wellformed (switch.toIdentity line)
    (usePath returnPath) named (Or.inl current) (keys ▸ wellformed.keys _)
  exact { pathed with }

theorem chosenFor_unqueued (switch : THSwitch) (returnPath : Option THPath) (line : LineRef) :
    chosenFor (unqueued prim switch returnPath line) line = chosenFor switch line := by
  obtain ⟨_, _, keys, _⟩ :=
    usePath_kept returnPath (switch.store.identities (switch.toIdentity line))
  unfold chosenFor unqueued
  simp [updateStore, toIdentity] at keys ⊢
  rw [keys]

/-- The open sent in answer leaves no line without one. -/
theorem wellformed_answered {fresh : Fresh} {returnPath : Option THPath} {line : LineRef}
    {answered : THSwitch} (taken : Taken switch line)
    (sending : sendOpen prim (unqueued prim switch returnPath line) fresh line = .ok answered) :
    Wellformed none answered := by
  rcases taken.ready with wellformed | ⟨wellformed, _, own, info, chosen, _, _⟩
  · exact wellformed_sendOpen (wellformed_unqueued wellformed returnPath line) (Or.inl rfl)
      sending
  · refine wellformed_sendOpen (wellformed_unqueued wellformed returnPath line)
      (Or.inr ⟨rfl, ?_⟩) sending
    rw [chosenFor_unqueued, chosen]
    rfl

/-- A line with an id had its open generated before. -/
theorem taken_named {line : LineRef} (taken : Taken switch line)
    (named : (switch.store.lines line).inLineId.isSome) : Wellformed none switch := by
  rcases taken.ready with wellformed | ⟨_, unnamed, _⟩
  · exact wellformed
  · rw [unnamed] at named
    cases named

theorem wellformed_completeOpen {fresh : Fresh} {returnPath : Option THPath} {line : LineRef}
    (taken : Taken switch line)
    (completed : completeOpen prim switch fresh returnPath line = .ok after) :
    Wellformed none after := by
  rcases completeOpen_cases completed with
    ⟨job, current, _, named, _, registering⟩ | ⟨_, answered, sending, registering⟩
  · have wellformed := taken_named taken named
    exact wellformed_openAndRegister (wellformed_unqueued wellformed returnPath line) registering
  · exact wellformed_openAndRegister (wellformed_answered taken sending) registering

/-- The set a packet is read with, by its first byte. -/
def ownSet (switch : THSwitch) (packet : THPacket) : Option THCipherSet :=
  match subdataWithRange (packet.body.getD []) 0 1 with
  | .error _ => none
  | .ok csid => switch.cipherParts.lookup (hexString csid)

/-- A packet that changes anything was read as an open by the set it names. -/
theorem processOpen_cases {fresh : Fresh} {packet : THPacket}
    (processed : Switch.processOpen prim switch fresh packet = .ok after) :
    after = switch ∨ ∃ own opened, ownSet switch packet = some own ∧
      openWith prim own packet = .ok (some opened) ∧
      receiveOpen prim switch fresh packet.returnPath opened = .ok after := by
  unfold Switch.processOpen at processed
  obtain ⟨csid, cut, processed⟩ := (bind_ok_iff _ _ _).mp processed
  split at processed
  · exact Or.inl (Except.ok.inj processed).symm
  · rename_i own found
    obtain ⟨read, opens, processed⟩ := (bind_ok_iff _ _ _).mp processed
    cases read with
    | none => exact Or.inl (Except.ok.inj processed).symm
    | some opened => exact Or.inr ⟨own, opened, by simp [ownSet, cut, found], opens, processed⟩

/-- The set is of the class its id says, and so is the key it reads. -/
theorem ownSet_class {packet : THPacket} {own : THCipherSet} {opened : Opened}
    (wellformed : Wellformed unsent switch) (found : ownSet switch packet = some own)
    (read : openWith prim own packet = .ok (some opened)) :
    opened.incomingCS.csid = own.csid ∧
      (switch.cipherParts.lookup opened.incomingCS.csid.identifier).isSome := by
  have class_ := (openWith_key prim read).1
  refine ⟨class_, ?_⟩
  unfold ownSet at found
  split at found
  · cases found
  · rename_i csid _
    have stands := wellformed.ownKeys _ own found
    rw [class_, ← stands, found]
    rfl

theorem wellformed_processOpen {fresh : Fresh} {packet : THPacket}
    (wellformed : Wellformed none switch)
    (processed : Switch.processOpen prim switch fresh packet = .ok after) :
    Wellformed none after := by
  rcases processOpen_cases processed with rfl | ⟨own, opened, found, read, received⟩
  · exact wellformed
  · obtain ⟨⟨store, given⟩, accepted, received⟩ := (bind_ok_iff _ _ _).mp received
    rcases acceptOpen_taken wellformed (ownSet_class wellformed found read).2 accepted with
      ⟨rfl, kept⟩ | ⟨line, rfl, taken⟩
    · cases received
      exact kept
    · exact wellformed_completeOpen taken received

/-! ## Opening lines -/

/-- With its job queued, an open is sent on the line of the identity where it
has a path and a key, and its vias are tried. -/
theorem openLine_cases {fresh : Fresh} {peerChannel : Option ChannelRef} {ref : IdentityRef}
    (opening : Switch.openLine prim switch fresh peerChannel ref = .ok after) :
    after = switch ∨ ∃ jobs next opened,
      (opened = { switch with pendingJobs := jobs, nextJob := next } ∨
        sendOpen prim (withCurrentLine
          { switch with pendingJobs := jobs, nextJob := next } ref).1 fresh
          (withCurrentLine switch ref).2 = .ok opened) ∧
      after = tryVias opened ref peerChannel := by
  unfold Switch.openLine at opening
  dsimp only at opening
  split at opening
  · exact Or.inl (Except.ok.inj opening).symm
  · generalize queuing : (if switch.pendingJobs.any fun job =>
        samePeer prim switch job.pending ref then switch
      else { switch with
        pendingJobs := switch.pendingJobs ++ [⟨switch.nextJob, ref⟩]
        nextJob := switch.nextJob + 1 }) = queued at opening
    obtain ⟨jobs, next, rfl⟩ : ∃ jobs next,
        queued = { switch with pendingJobs := jobs, nextJob := next } := by
      rw [← queuing]
      split
      · exact ⟨switch.pendingJobs, switch.nextJob, rfl⟩
      · exact ⟨_, _, rfl⟩
    refine Or.inr ⟨jobs, next, ?_⟩
    split at opening
    · obtain ⟨sent, sending, opening⟩ := (bind_ok_iff _ _ _).mp opening
      cases opening
      refine ⟨sent, Or.inr ?_, rfl⟩
      have line : (withCurrentLine { switch with pendingJobs := jobs, nextJob := next } ref).2 =
          (withCurrentLine switch ref).2 := by
        unfold withCurrentLine
        dsimp only
        split <;> rfl
      rw [← line]
      exact sending
    · cases opening
      exact ⟨_, Or.inl rfl, rfl⟩

theorem wellformed_tryVias (wellformed : Wellformed unsent switch) (ref : IdentityRef)
    (peerChannel : Option ChannelRef) : Wellformed unsent (tryVias switch ref peerChannel) := by
  unfold tryVias
  dsimp only
  split
  · exact wellformed_updateIdentity wellformed ref _ rfl (Or.inl rfl) (wellformed.keys ref)
  · exact wellformed

theorem wellformed_openLine {fresh : Fresh} {peerChannel : Option ChannelRef} {ref : IdentityRef}
    (wellformed : Wellformed none switch)
    (opening : Switch.openLine prim switch fresh peerChannel ref = .ok after) :
    Wellformed none after := by
  rcases openLine_cases opening with rfl | ⟨jobs, next, opened, opens, rfl⟩
  · exact wellformed
  · apply wellformed_tryVias
    have queued : Wellformed none { switch with pendingJobs := jobs, nextJob := next } :=
      { wellformed with }
    rcases opens with rfl | sending
    · exact queued
    · exact wellformed_sendOpen (wellformed_withCurrentLine queued ref) (Or.inl rfl) sending

theorem addPath_kept (path : THPath) (identity : THIdentity) :
    (addPath path identity).hashnameCache = identity.hashnameCache ∧
      (addPath path identity).parts = identity.parts ∧
      (addPath path identity).cipherParts = identity.cipherParts ∧
      (addPath path identity).currentLine = identity.currentLine := by
  unfold addPath
  split <;> exact ⟨rfl, rfl, rfl, rfl⟩

theorem addPaths_kept (paths : List THPath) (identity : THIdentity) :
    let added := paths.foldl (fun identity path => addPath path identity) identity
    added.hashnameCache = identity.hashnameCache ∧ added.parts = identity.parts ∧
      added.cipherParts = identity.cipherParts ∧ added.currentLine = identity.currentLine := by
  induction paths generalizing identity with
  | nil => exact ⟨rfl, rfl, rfl, rfl⟩
  | cons path rest ih =>
      obtain ⟨cached, parts, keys, line⟩ := ih (addPath path identity)
      obtain ⟨cachedOne, partsOne, keysOne, lineOne⟩ := addPath_kept path identity
      exact ⟨cached.trans cachedOne, parts.trans partsOne, keys.trans keysOne,
        line.trans lineOne⟩

/-- A seed has the sets of its entry and no line. -/
theorem seedIdentity_ok {entry : SeedEntry} {seed : THIdentity}
    (built : seedIdentity prim entry = .ok seed) :
    seed.currentLine = none ∧ IdKeyed seed.cipherParts ∧
      seed.hashnameCache = some (hashnameForParts prim.sha256 entry.parts) := by
  unfold seedIdentity at built
  obtain ⟨cs, _, built⟩ := (bind_ok_iff _ _ _).mp built
  cases built
  have pathed : ∀ keyed : THIdentity, keyed.currentLine = none → IdKeyed keyed.cipherParts →
      let seed := entry.paths.foldl (fun identity path => addPath path identity)
        { keyed with parts := entry.parts }
      seed.currentLine = none ∧ IdKeyed seed.cipherParts := by
    intro keyed unlined keys
    obtain ⟨_, _, sets, line⟩ := addPaths_kept entry.paths { keyed with parts := entry.parts }
    refine ⟨line.trans unlined, ?_⟩
    rw [sets]
    exact keys
  have first : IdKeyed (THIdentity.init.addCipherSet prim.sha256 cs).cipherParts :=
    idKeyed_addCipherSet prim.sha256 idKeyed_empty cs
  have unlined : (THIdentity.init.addCipherSet prim.sha256 cs).currentLine = none :=
    (OpenAuthentication.addCipherSet_kept prim _ cs).2
  cases entry.keys3a with
  | none =>
      obtain ⟨line, keys⟩ := pathed _ unlined first
      exact ⟨line, keys, rfl⟩
  | some keyData =>
      obtain ⟨line, keys⟩ := pathed _
        ((OpenAuthentication.addCipherSet_kept prim _ (set3a prim (some keyData))).2.trans unlined)
        (idKeyed_addCipherSet prim.sha256 first _)
      exact ⟨line, keys, rfl⟩

/-- An identity outside the cache, which has no line yet. -/
theorem sound_allocIdentity {store : Store} (sound : OpenAuthentication.Sound store)
    {identity : THIdentity} (unlined : identity.currentLine = none) :
    OpenAuthentication.Sound (store.allocIdentity identity) := by
  refine ⟨?_, ?_⟩
  · intro hashname ref found
    obtain ⟨inside, named⟩ := sound.keyed hashname ref found
    refine ⟨Nat.lt_succ_of_lt inside, ?_⟩
    simpa [Store.allocIdentity, Nat.ne_of_lt inside] using named
  · intro ref line held
    by_cases same : ref = store.nextIdentity
    · rw [same, identities_allocIdentity_same, unlined] at held
      cases held
    · exact sound.owned ref line (by simpa [Store.allocIdentity, same] using held)

theorem wellformed_loadSeed {fresh : Fresh} {peerChannel : Option ChannelRef}
    {entry : SeedEntry} (wellformed : Wellformed none switch)
    (loading : loadSeed prim switch fresh peerChannel entry = .ok after) :
    Wellformed none after := by
  obtain ⟨seed, built, opening⟩ := (bind_ok_iff _ _ _).mp loading
  obtain ⟨unlined, keyed, _⟩ := seedIdentity_ok built
  exact wellformed_openLine (wellformed_allocIdentity wellformed unlined keyed
    (sound_allocIdentity wellformed.known unlined)) opening

variable (prim) in
/-- The lookup of a connect request. -/
def connectPeer (switch : THSwitch) (request : Connect) :
    Except Fault (Store × Option IdentityRef) := do
  let fromParts ← partsOf (request.innerPacket.objectForKey "from")
  let cs ← connectSet prim fromParts request.innerPacket.body
  connectIdentity prim fromParts cs switch.store

/-- The peer found, without its line and with the paths of the request. -/
def reached (switch : THSwitch) (request : Connect) (store : Store) (peer : IdentityRef) :
    THSwitch :=
  (forsake { switch with store := store } peer).updateStore fun store =>
    store.updateIdentity peer fun identity =>
      request.paths.foldl (fun identity path => addPath path identity) identity

def related (relayed : THSwitch) (request : Connect) (peer : IdentityRef) : THSwitch :=
  relayed.updateStore fun store => store.updateIdentity peer fun identity =>
    { identity with relay := some ⟨some request.peerChannel⟩ }

/-- A connect that changes more than the store knows its peer, forsakes the line
to it and opens another. -/
theorem connect_cases {relayFresh fresh : Fresh} {relayPeer : Option ChannelRef}
    {request : Connect}
    (connecting : connect prim switch relayFresh fresh relayPeer request = .ok after) :
    ∃ store known, connectPeer prim switch request = .ok (store, known) ∧
      ((known = none ∧ after = { switch with store := store }) ∨
        ∃ peer relayed, known = some peer ∧
          openRelayChannel prim (reached switch request store peer) relayFresh relayPeer
            request.relayIdentity = .ok relayed ∧
          Switch.openLine prim (related relayed request peer) fresh none peer = .ok after) := by
  unfold connect at connecting
  obtain ⟨parts, readParts, connecting⟩ := (bind_ok_iff _ _ _).mp connecting
  obtain ⟨cs, readSet, connecting⟩ := (bind_ok_iff _ _ _).mp connecting
  obtain ⟨⟨store, known⟩, looked, connecting⟩ := (bind_ok_iff _ _ _).mp connecting
  refine ⟨store, known, by simp [connectPeer, readParts, readSet, looked], ?_⟩
  cases known with
  | none => exact Or.inl ⟨rfl, (Except.ok.inj connecting).symm⟩
  | some peer =>
      obtain ⟨relayed, relaying, opening⟩ := (bind_ok_iff _ _ _).mp connecting
      exact Or.inr ⟨peer, relayed, rfl, relaying, opening⟩

theorem connectPeer_ok {request : Connect} {store : Store} {known : Option IdentityRef}
    (looked : connectPeer prim switch request = .ok (store, known)) :
    store = switch.store ∨ ∃ parts cipherSet,
      store = (identityFromParts prim.sha256 parts cipherSet switch.store).1 := by
  obtain ⟨parts, _, looked⟩ := (bind_ok_iff _ _ _).mp looked
  obtain ⟨cs, _, looked⟩ := (bind_ok_iff _ _ _).mp looked
  unfold connectIdentity at looked
  split at looked
  · rename_i cipherSet _
    exact Or.inr ⟨parts, cipherSet, by rw [Except.ok.inj looked]⟩
  · split at looked
    · cases looked
      exact Or.inl rfl
    · cases looked

theorem wellformed_openRelayChannel {fresh : Fresh} {peerChannel : Option ChannelRef}
    {ref : IdentityRef} (wellformed : Wellformed none switch)
    (opening : openRelayChannel prim switch fresh peerChannel ref = .ok after) :
    Wellformed none after := by
  unfold openRelayChannel at opening
  split at opening
  · cases opening
    exact wellformed
  · exact wellformed_openLine wellformed opening

theorem wellformed_connectPeer {request : Connect} {store : Store} {known : Option IdentityRef}
    (wellformed : Wellformed none switch)
    (looked : connectPeer prim switch request = .ok (store, known)) :
    Wellformed none { switch with store := store } := by
  rcases connectPeer_ok looked with rfl | ⟨parts, cipherSet, rfl⟩
  · exact wellformed
  · exact wellformed_identityFromParts wellformed parts cipherSet

theorem wellformed_reached {store : Store} (request : Connect) (peer : IdentityRef)
    (wellformed : Wellformed none { switch with store := store }) :
    Wellformed none (reached switch request store peer) := by
  have forsaken := wellformed_forsake wellformed peer
  obtain ⟨named, _, keys, line⟩ := addPaths_kept request.paths
    ((forsake { switch with store := store } peer).store.identities peer)
  exact wellformed_updateIdentity forsaken peer
    (fun identity => request.paths.foldl (fun identity path => addPath path identity) identity)
    named (Or.inl line) (by rw [keys]; exact forsaken.keys peer)

theorem wellformed_related (request : Connect) (peer : IdentityRef)
    (wellformed : Wellformed none switch) : Wellformed none (related switch request peer) :=
  wellformed_updateIdentity wellformed peer _ rfl (Or.inl rfl) (wellformed.keys peer)

theorem wellformed_connect {relayFresh fresh : Fresh} {relayPeer : Option ChannelRef}
    {request : Connect} (wellformed : Wellformed none switch)
    (connecting : connect prim switch relayFresh fresh relayPeer request = .ok after) :
    Wellformed none after := by
  obtain ⟨store, known, looked, done⟩ := connect_cases connecting
  have found := wellformed_connectPeer wellformed looked
  rcases done with ⟨_, rfl⟩ | ⟨peer, relayed, _, relaying, opening⟩
  · exact found
  · have relaid := wellformed_openRelayChannel (wellformed_reached request peer found) relaying
    exact wellformed_openLine (wellformed_related request peer relaid) opening

/-! ## Runs -/

theorem wellformed_perform {event : Event} (wellformed : Wellformed none switch)
    (performed : perform prim switch event = .ok after) : Wellformed none after := by
  cases event with
  | loadSeed fresh peerChannel entry => exact wellformed_loadSeed wellformed performed
  | identityFromHashname hashname =>
      cases performed
      exact wellformed_identityFromHashname wellformed hashname
  | identityFromParts parts cipherSet =>
      cases performed
      exact wellformed_identityFromParts wellformed parts cipherSet
  | addCipherSet identity cipherSet =>
      cases performed
      have kept := OpenAuthentication.addCipherSet_kept prim (switch.store.identities identity)
        cipherSet
      exact wellformed_updateIdentity wellformed identity _ kept.1 (Or.inl kept.2)
        (idKeyed_addCipherSet prim.sha256 (wellformed.keys identity) cipherSet)
  | openLine fresh peerChannel toIdentity => exact wellformed_openLine wellformed performed
  | processOpen fresh incomingPacket => exact wellformed_processOpen wellformed performed
  | connect relayFresh fresh relayPeer request => exact wellformed_connect wellformed performed
  | resetIdentity identity =>
      cases performed
      exact wellformed_resetIdentity wellformed identity
  | closeLine line =>
      cases performed
      exact wellformed_closeLine wellformed line
  | lineTimeout job toIdentity =>
      cases performed
      exact wellformed_lineTimeout wellformed job toIdentity
  | sendOpen fresh identity =>
      change sendOpenTo prim switch fresh identity = .ok after at performed
      unfold sendOpenTo at performed
      split at performed
      · cases performed
        exact wellformed
      · exact wellformed_sendOpen wellformed (Or.inl rfl) performed
  | routes identity routes =>
      cases performed
      exact wellformed_updateIdentity wellformed identity routes.set rfl (Or.inl rfl)
        (wellformed.keys identity)

theorem step_ok (event : Event) :
    step prim switch event = switch ∨ perform prim switch event = .ok (step prim switch event) := by
  unfold step
  cases perform prim switch event with
  | ok after => exact Or.inr rfl
  | error fault => exact Or.inl rfl

theorem wellformed_step (event : Event) (wellformed : Wellformed none switch) :
    Wellformed none (step prim switch event) := by
  rcases @step_ok prim switch event with same | performed
  · rw [same]
    exact wellformed
  · exact wellformed_perform wellformed performed

end Keeping

/-- A switch that knows its own keys and nobody yet. -/
structure Starts (switch : THSwitch) : Prop where
  store : switch.store = .start
  ownKeys : IdKeyed switch.cipherParts
  closed : switch.openLines = .empty

theorem wellformed_start {switch : THSwitch} (starts : Starts switch) :
    Wellformed none switch where
  known := starts.store ▸ OpenAuthentication.sound_start
  ownKeys := starts.ownKeys
  keys := by
    intro ref
    rw [starts.store]
    exact idKeyed_empty
  infos := by
    intro line info held
    rw [starts.store] at held
    cases held
  cached := by
    intro ref line held
    rw [starts.store] at held
    cases held

theorem starts_atStart : Starts switchAtStart where
  store := rfl
  ownKeys := idKeyed_insert (idKeyed_single ⟨.cs2a, [9], some []⟩) ⟨.cs3a, [8], some []⟩
  closed := rfl

end Telehash.SwitchSound
