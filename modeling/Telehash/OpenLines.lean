import Telehash.SwitchSound

/-!
The table of open lines over whole runs. A line is registered by the open that
completes it, which is found through the hashname of a pending job but may belong
to another identity of that hashname; the condition on arriving opens leaves out
just that, and lines for which no open of their own was ever generated.
-/

namespace Telehash.OpenLines
open Association Foundation Packet Identity CipherSet Switch LineInfo THSwitch Runs
open SwitchRuns SwitchSound

/-- The line is open and has what it takes to be used. -/
structure Working (line : THLine) : Prop where
  isOpen : line.isOpen = true
  told : line.outLineId.isSome
  encrypts : (encryptorKey line).isSome
  decrypts : (decryptorKey line).isSome

/-- Every entry is a working line under its own id, the current one of its
identity; and no two entries are lines to one hashname. -/
structure InOrder (prim : Primitives) (switch : THSwitch) : Prop where
  named : ∀ lineId line, switch.openLines.lookup lineId = some line →
    (switch.store.lines line).inLineId = some lineId
  working : ∀ lineId line, switch.openLines.lookup lineId = some line →
    Working (switch.store.lines line)
  current : ∀ lineId line, switch.openLines.lookup lineId = some line →
    (switch.store.identities (switch.toIdentity line)).currentLine = some line
  apart : ∀ one two lineOne lineTwo, switch.openLines.lookup one = some lineOne →
    switch.openLines.lookup two = some lineTwo → one ≠ two →
    (switch.store.identities (switch.toIdentity lineOne)).hashname prim.sha256 ≠
      (switch.store.identities (switch.toIdentity lineTwo)).hashname prim.sha256

/-- An entry leads to the current line of a cached identity. -/
structure Entry (store : Store) (lineId : String) (line : LineRef) : Prop where
  named : (store.lines line).inLineId = some lineId
  current : (store.identities (store.lines line).toIdentity).currentLine = some line
  cached : ∃ hashname, store.identityCache.lookup hashname = some (store.lines line).toIdentity

/-- A line that an open has just given may have lost what the open before it told. -/
structure Registered (given : Option LineRef) (switch : THSwitch) : Prop where
  entries : ∀ lineId line, switch.openLines.lookup lineId = some line →
    Entry switch.store lineId line
  working : ∀ lineId line, switch.openLines.lookup lineId = some line → some line ≠ given →
    Working (switch.store.lines line)
  informed : ∀ line, (switch.store.lines line).inLineId.isSome →
    (switch.store.lines line).cipherSetInfo.isSome

section Keeping
variable {prim : Primitives} {switch after : THSwitch} {unsent given : Option LineRef}

theorem registered_inOrder (registered : Registered none switch)
    (wellformed : Wellformed unsent switch) : InOrder prim switch where
  named lineId line found := (registered.entries lineId line found).named
  working lineId line found := registered.working lineId line found (Option.some_ne_none line)
  current lineId line found := (registered.entries lineId line found).current
  apart := by
    intro one two lineOne lineTwo foundOne foundTwo different same
    have entryOne := registered.entries one lineOne foundOne
    have entryTwo := registered.entries two lineTwo foundTwo
    obtain ⟨hashnameOne, cachedOne⟩ := entryOne.cached
    obtain ⟨hashnameTwo, cachedTwo⟩ := entryTwo.cached
    have nameOne := (wellformed.known.keyed hashnameOne _ cachedOne).2
    have nameTwo := (wellformed.known.keyed hashnameTwo _ cachedTwo).2
    have alike : hashnameOne = hashnameTwo := by
      simpa [THIdentity.hashname, toIdentity, nameOne, nameTwo] using same
    subst alike
    have owner := Option.some.inj (cachedOne.symm.trans cachedTwo)
    have current := entryTwo.current
    rw [← owner, entryOne.current] at current
    cases current
    exact different (Option.some.inj (entryOne.named.symm.trans entryTwo.named))

/-! ## Changes of identities -/

theorem registered_store {store : Store} (registered : Registered given switch)
    (lines : store.lines = switch.store.lines)
    (cache : ∀ hashname ref, switch.store.identityCache.lookup hashname = some ref →
      store.identityCache.lookup hashname = some ref)
    (current : ∀ lineId line, switch.openLines.lookup lineId = some line →
      (store.identities (switch.toIdentity line)).currentLine =
        (switch.store.identities (switch.toIdentity line)).currentLine) :
    Registered given { switch with store := store } where
  entries := by
    intro lineId line found
    obtain ⟨named, held, hashname, cached⟩ := registered.entries lineId line found
    have same := current lineId line found
    refine ⟨?_, ?_, hashname, ?_⟩
    · rw [lines]
      exact named
    · rw [lines]
      exact same.trans held
    · rw [lines]
      exact cache hashname _ cached
  working := lines ▸ registered.working
  informed := lines ▸ registered.informed

theorem registered_updateIdentity (registered : Registered given switch) (ref : IdentityRef)
    (change : THIdentity → THIdentity)
    (kept : ∀ lineId line, switch.openLines.lookup lineId = some line →
      switch.toIdentity line = ref → (change (switch.store.identities ref)).currentLine =
        (switch.store.identities ref).currentLine) :
    Registered given (switch.updateStore fun store => store.updateIdentity ref change) := by
  refine registered_store registered rfl (fun _ _ cached => cached) ?_
  intro lineId line found
  by_cases same : switch.toIdentity line = ref
  · rw [same, identities_updateIdentity_same]
    exact kept lineId line found same
  · rw [identities_updateIdentity_other _ _ _ _ same]

/-- The identity has no line that is registered. -/
theorem registered_unlined (registered : Registered given switch) (ref : IdentityRef)
    (change : THIdentity → THIdentity)
    (unlined : ∀ lineId line, switch.openLines.lookup lineId = some line →
      (switch.store.identities ref).currentLine ≠ some line) :
    Registered given (switch.updateStore fun store => store.updateIdentity ref change) := by
  refine registered_updateIdentity registered ref change ?_
  rintro lineId line found rfl
  exact absurd (registered.entries lineId line found).current (unlined lineId line found)

theorem registered_owner (registered : Registered given switch)
    (wellformed : Wellformed unsent switch) {lineId : String} {line : LineRef}
    (found : switch.openLines.lookup lineId = some line) :
    switch.toIdentity line < switch.store.nextIdentity := by
  obtain ⟨hashname, cached⟩ := (registered.entries lineId line found).cached
  exact (wellformed.known.keyed hashname _ cached).1

theorem registered_allocIdentity (registered : Registered given switch)
    (wellformed : Wellformed unsent switch) (identity : THIdentity) :
    Registered given (switch.updateStore fun store => store.allocIdentity identity) := by
  refine registered_store registered rfl (fun _ _ cached => cached) ?_
  intro lineId line found
  have older := Nat.ne_of_lt (registered_owner registered wellformed found)
  simp [Store.allocIdentity, older]

theorem registered_cacheIdentity (registered : Registered given switch)
    (wellformed : Wellformed unsent switch) {hashname : String}
    (absent : switch.store.identityCache.lookup hashname = none) (identity : THIdentity) :
    Registered given (switch.updateStore fun store => store.cacheIdentity hashname identity) := by
  refine registered_store registered rfl ?_ ?_
  · intro known ref cached
    have other : known ≠ hashname := by
      rintro rfl
      rw [absent] at cached
      cases cached
    simp only [Store.cacheIdentity, lookup_insert_other _ _ _ _ other]
    exact cached
  · intro lineId line found
    have older := Nat.ne_of_lt (registered_owner registered wellformed found)
    simp [Store.cacheIdentity, Store.allocIdentity, older]

theorem registered_identityFromParts (registered : Registered given switch)
    (wellformed : Wellformed unsent switch) (parts : Option Parts) (cipherSet : THCipherSet) :
    Registered given { switch with
      store := (identityFromParts prim.sha256 parts cipherSet switch.store).1 } := by
  cases found : switch.store.identityCache.lookup (hashnameForParts prim.sha256 parts) with
  | some ref =>
      rw [identityFromParts_known prim.sha256 cipherSet found]
      exact registered_updateIdentity registered ref (THIdentity.setKeys parts cipherSet)
        fun _ _ _ _ => rfl
  | none =>
      by_cases belongs : keyMatches prim.sha256 parts cipherSet
      · rw [identityFromParts_new prim.sha256 found belongs]
        exact registered_cacheIdentity registered wellformed found _
      · rw [identityFromParts_foreign prim.sha256 found belongs]
        exact registered

theorem registered_identityFromHashname (registered : Registered given switch)
    (wellformed : Wellformed unsent switch) (hashname : String) :
    Registered given { switch with
      store := (Identity.identityFromHashname hashname switch.store).1 } := by
  unfold Identity.identityFromHashname
  split
  · rename_i absent
    exact registered_cacheIdentity registered wellformed absent .init
  · exact registered

theorem registered_closeChannels (registered : Registered given switch) (ref : IdentityRef) :
    Registered given (switch.updateStore (closeChannels ref)) := by
  have closed := registered_updateIdentity registered ref
    (fun identity => { identity with channels := .empty }) fun _ _ _ _ => rfl
  exact ⟨fun lineId line found => by
    obtain ⟨named, current, cached⟩ := closed.entries lineId line found
    exact ⟨named, current, cached⟩, closed.working, closed.informed⟩

/-! ## Closing -/

theorem lookup_unregister {lineId : Option String} {key : String} {line : LineRef}
    {openLines : Dictionary String LineRef}
    (found : (unregister lineId openLines).lookup key = some line) :
    openLines.lookup key = some line ∧ lineId ≠ some key := by
  unfold unregister at found
  split at found
  · refine ⟨found, ?_⟩
    rintro ⟨⟩
  · rw [lookup_erase] at found
    split at found
    · cases found
    · rename_i other
      exact ⟨found, fun same => other (Option.some.inj same).symm⟩

/-- With its entry gone nothing is asked of the line. -/
theorem registered_forgotten {line : LineRef} (registered : Registered given switch)
    (only : ∀ other, given = some other → other = line) :
    Registered none { switch with
      openLines := unregister (switch.store.lines line).inLineId switch.openLines } where
  entries := by
    intro lineId other found
    exact registered.entries lineId other (lookup_unregister found).1
  working := by
    intro lineId other found _
    obtain ⟨before, unnamed⟩ := lookup_unregister found
    refine registered.working lineId other before ?_
    intro same
    obtain rfl := only other same.symm
    exact unnamed (registered.entries lineId other before).named
  informed := registered.informed

theorem leave_other {store : Store} {line other : LineRef} {ref : IdentityRef}
    (held : (store.identities ref).currentLine = some other) (different : other ≠ line) :
    ((leave line store).identities ref).currentLine = some other := by
  unfold leave
  split
  · rename_i current
    have apart : ref ≠ (store.lines line).toIdentity := by
      rintro rfl
      rw [held] at current
      exact different (Option.some.inj current)
    rw [identities_updateIdentity_other _ _ _ _ apart]
    exact held
  · exact held

theorem registered_closeLine (registered : Registered none switch) (line : LineRef) :
    Registered none (closeLine switch line) := by
  have forgotten := @registered_forgotten switch none line registered fun _ absent => nomatch absent
  have closed : Registered none { switch with
      openLines := unregister (switch.store.lines line).inLineId switch.openLines
      store := leave line switch.store } := by
    refine registered_store forgotten (lines_leave _ line) ?_ ?_
    · intro hashname ref cached
      unfold leave
      split <;> exact cached
    · intro lineId other found
      obtain ⟨before, unnamed⟩ := lookup_unregister found
      have entry := registered.entries lineId other before
      have different : other ≠ line := by
        rintro rfl
        exact unnamed entry.named
      exact (leave_other entry.current different).trans entry.current.symm
  rw [closeLine_eq]
  exact { closed with }

theorem registered_resetIdentity (registered : Registered none switch)
    (wellformed : Wellformed none switch) (ref : IdentityRef) :
    Registered none (resetIdentity switch ref) := by
  have reset : ∀ closed, Registered none closed →
      (closed.store.identities ref).currentLine = none →
      Registered none (closed.updateStore (Identity.reset ref)) := by
    intro closed kept unlined
    refine registered_unlined (registered_closeChannels kept ref) ref _ ?_
    intro lineId line found
    simp [updateStore, closeChannels, unlined]
  unfold resetIdentity
  dsimp only
  split
  · rename_i unlined
    exact reset switch registered unlined
  · rename_i line held
    refine reset _ (registered_closeLine registered line) ?_
    rw [closeLine_eq]
    have owner := (wellformed.known.owned ref line held).2
    simp [leave, owner, held]

theorem registered_lineTimeout (registered : Registered none switch) (job : Nat)
    (ref : IdentityRef) : Registered none (lineTimeout switch job ref) := by
  unfold lineTimeout
  dsimp only
  split
  · exact registered
  · rename_i unnamed
    have dropped := registered_unlined registered ref
      (fun identity => { identity with currentLine := none }) (by
        intro lineId line found held
        have named := (registered.entries lineId line found).named
        simp [held, named] at unnamed)
    exact { dropped with }

theorem registered_forsake (registered : Registered none switch) (ref : IdentityRef) :
    Registered none (forsake switch ref) := by
  unfold forsake
  split
  · exact registered
  · rename_i line _
    exact registered_updateIdentity
      (registered_closeChannels (registered_closeLine registered line) ref) ref _ fun _ _ _ _ => rfl

/-! ## Changes of lines -/

theorem registered_updateLine (registered : Registered given switch) (line : LineRef)
    (change : THLine → THLine)
    (owner : (change (switch.store.lines line)).toIdentity = (switch.store.lines line).toIdentity)
    (named : ∀ lineId, (switch.store.lines line).inLineId = some lineId →
      (change (switch.store.lines line)).inLineId = some lineId)
    (working : some line ≠ given → Working (switch.store.lines line) →
      Working (change (switch.store.lines line)))
    (informed : (change (switch.store.lines line)).inLineId.isSome →
      (change (switch.store.lines line)).cipherSetInfo.isSome) :
    Registered given (switch.updateStore fun store => store.updateLine line change) where
  entries := by
    intro lineId ref found
    obtain ⟨before, current, cached⟩ := registered.entries lineId ref found
    have kept := forall_updateLine switch.store
      (fun ref held => held.toIdentity = (switch.store.lines ref).toIdentity ∧
        ((switch.store.lines ref).inLineId = some lineId → held.inLineId = some lineId))
      ⟨owner, named lineId⟩ (fun _ _ => ⟨rfl, id⟩) ref
    refine ⟨kept.2 before, ?_, ?_⟩
    · simp only [updateStore]
      rw [kept.1]
      exact current
    · simp only [updateStore]
      rw [kept.1]
      exact cached
  working := by
    intro lineId ref found other
    refine forall_updateLine switch.store
      (fun ref held => some ref ≠ given → Working (switch.store.lines ref) → Working held)
      working (fun _ _ _ before => before) ref other (registered.working lineId ref found other)
  informed := forall_updateLine switch.store
    (fun _ held => held.inLineId.isSome → held.cipherSetInfo.isSome) informed
    fun ref _ => registered.informed ref

/-- A new line of an identity without one. -/
theorem registered_newLine (registered : Registered given switch)
    (wellformed : Wellformed unsent switch) {sender : IdentityRef} (line : THLine)
    (unlined : (switch.store.identities sender).currentLine = none)
    (unnamed : line.inLineId = none) :
    Registered given (switch.updateStore fun store =>
      (store.allocLine line).updateIdentity sender fun identity =>
        { identity with currentLine := some store.nextLine }) := by
  have older : ∀ {lineId ref}, switch.openLines.lookup lineId = some ref →
      (switch.store.allocLine line).lines ref = switch.store.lines ref := by
    intro lineId ref found
    have inside := (wellformed.known.owned _ ref (registered.entries lineId ref found).current).1
    simp [Store.allocLine, Nat.ne_of_lt inside]
  have grown : Registered given (switch.updateStore fun store => store.allocLine line) := by
    refine ⟨?_, ?_, ?_⟩
    · intro lineId ref found
      obtain ⟨named, current, cached⟩ := registered.entries lineId ref found
      have same := older found
      exact ⟨by rw [updateStore, same]; exact named, by rw [updateStore, same]; exact current,
        by rw [updateStore, same]; exact cached⟩
    · intro lineId ref found other
      rw [updateStore, older found]
      exact registered.working lineId ref found other
    · intro ref held
      by_cases same : ref = switch.store.nextLine
      · subst same
        simp [updateStore, unnamed] at held
      · simpa [updateStore, Store.allocLine, same] using
          registered.informed ref (by simpa [updateStore, Store.allocLine, same] using held)
  refine registered_unlined grown sender
    (fun identity => { identity with currentLine := some switch.store.nextLine }) ?_
  intro lineId ref _ held
  rw [updateStore] at held
  cases unlined.symm.trans held

theorem registered_withCurrentLine (registered : Registered given switch)
    (wellformed : Wellformed unsent switch) (ref : IdentityRef) :
    Registered given (withCurrentLine switch ref).1 := by
  unfold withCurrentLine
  split
  · exact registered
  · rename_i unlined
    exact registered_newLine registered wellformed (.new ref) unlined rfl

theorem registered_sendOpen {fresh : Fresh} {line : LineRef}
    (registered : Registered given switch) (wellformed : Wellformed unsent switch)
    (sending : sendOpen prim switch fresh line = .ok after) : Registered given after := by
  obtain ⟨sent, ⟨_, rfl⟩ | ⟨info, lineId, opened, _, prepares, rfl⟩⟩ :=
    sendOpen_cases wellformed sending
  · exact { registered with }
  · have prepared := registered_updateLine registered line (prepare info lineId) prepares.owner
      prepares.lineId
      (fun _ working => ⟨working.isOpen, working.told, prepares.encryptor ▸ working.encrypts,
        prepares.decryptor ▸ working.decrypts⟩) (fun _ => rfl)
    exact { prepared with }

/-! ## Registering -/

/-- Finalizing a line that has a remote key makes it work. -/
theorem working_finalized {lineKeys : KeyPair} {line done : THLine}
    (classes : ∀ info, line.cipherSetInfo = some info → OfOneClass info)
    (remote : (remoteKey line).isSome)
    (finalized : finalizeLineKeys prim lineKeys line = .ok done) :
    Working { done with isOpen := true } := by
  obtain ⟨told, known⟩ := Option.isSome_iff_exists.mp remote
  obtain ⟨info, stored, _⟩ := Option.bind_eq_some_iff.mp known
  have equipped := ofOneClass_equipped stored (classes info stored)
  obtain ⟨_, _, _, _, _, keys, _, outLineId, _, _, _, _, out, _, decrypts, encrypts⟩ :=
    finalizeLineKeys_ok prim (fun _ => True) trivial equipped known finalized
  exact ⟨rfl, by simp [out], by simpa [encryptorKey] using congrArg Option.isSome encrypts,
    by simpa [decryptorKey] using congrArg Option.isSome decrypts⟩

theorem registered_openAndRegister {lineKeys : KeyPair} {line : LineRef}
    (registered : Registered none switch) (wellformed : Wellformed unsent switch)
    (current : (switch.store.identities (switch.toIdentity line)).currentLine = some line)
    (cached : ∃ hashname, switch.store.identityCache.lookup hashname =
      some (switch.toIdentity line))
    (remote : (remoteKey (switch.store.lines line)).isSome)
    (registering : openAndRegister prim switch lineKeys line = .ok after) :
    Registered none after := by
  obtain ⟨lineId, done, next, named, finalized, rfl⟩ := openAndRegister_cases registering
  have works : Working { done with isOpen := true } := by
    refine working_finalized ?_ ?_ finalized
    · exact wellformed.infos line
    · exact remote
  obtain ⟨info, rfl, alike⟩ := finalizeLineKeys_alike finalized
  have opened := registered_updateLine registered line
    (fun _ => { switch.store.lines line with
      nextChannelId := next, cipherSetInfo := info, isOpen := true }) rfl (fun _ same => same)
    (fun _ _ => works)
    (fun held => (alike_isSome alike).trans (registered.informed line held))
  refine ⟨?_, ?_, opened.informed⟩
  · intro key ref found
    rw [lookup_insert] at found
    split at found
    · rename_i same
      cases found
      subst same
      refine ⟨by simp [updateStore, named], ?_, ?_⟩
      · simpa [updateStore, Store.updateLine, toIdentity] using current
      · simpa [updateStore, Store.updateLine, toIdentity] using cached
    · exact opened.entries key ref found
  · intro key ref found
    rw [lookup_insert] at found
    split at found
    · cases found
      intro _
      simpa [updateStore] using works
    · exact opened.working key ref found

/-! ## Accepted opens -/

theorem setRemoteKey_told {csid : CipherSetId} {told : Data} {info : THCipherSetLineInfo}
    {after : Option THCipherSetLineInfo}
    (taken : setRemoteKey csid told (some info) = .ok after) :
    (after.bind remoteKeyOf).isSome := by
  cases info with
  | info2a info =>
      simp only [setRemoteKey] at taken
      split at taken
      · cases taken
        rfl
      · cases taken
  | info3a info =>
      simp only [setRemoteKey] at taken
      split at taken
      · cases taken
        rfl
      · cases taken

theorem newLineInfo_told (cipherSet : THCipherSet) (told : Data) (lineKeys : KeyPair) :
    remoteKeyOf (newLineInfo cipherSet told lineKeys) = some told := by
  unfold newLineInfo
  split <;> rfl

/-- The line an open gives keeps its place in the table, and has a remote key
if it is new or had a line info. -/
theorem registered_takeLine {opened : Opened} {lineKeys : KeyPair} {sender : IdentityRef}
    {lineId : Option Json} {time : Nat} {store : Store} {line : LineRef}
    (registered : Registered none switch) (wellformed : Wellformed none switch)
    (informed : ∀ current, (switch.store.identities sender).currentLine = some current →
      (switch.store.lines current).cipherSetInfo.isSome)
    (taken : takeLine opened lineKeys sender lineId time switch.store = .ok (store, some line)) :
    Registered (some line) { switch with store := store } ∧
      (remoteKey (store.lines line)).isSome := by
  unfold takeLine at taken
  split at taken
  · rename_i held
    obtain ⟨info, told, same⟩ := (bind_ok_iff _ _ _).mp taken
    cases same
    obtain ⟨before, stored⟩ := Option.isSome_iff_exists.mp (informed line held)
    refine ⟨?_, ?_⟩
    · have loosened : Registered (some line) switch :=
        ⟨registered.entries, fun key ref found _ =>
          registered.working key ref found (Option.some_ne_none ref), registered.informed⟩
      refine registered_updateLine loosened line
        (fun line => handleOpen lineId time { line with cipherSetInfo := info }) rfl
        (fun _ named => named) (fun other => absurd rfl other) ?_
      intro named
      exact (alike_isSome (setRemoteKey_alike told)).trans (registered.informed line named)
    · rw [lines_updateLine_same]
      exact setRemoteKey_told (stored ▸ told)
  · rename_i unlined
    cases taken
    have grown := registered_newLine registered wellformed
      (handleOpen lineId time { THLine.new sender with
        cipherSetInfo := some (newLineInfo opened.incomingCS opened.remoteKey lineKeys) })
      unlined rfl
    refine ⟨⟨grown.entries, fun key ref found _ =>
      grown.working key ref found (Option.some_ne_none ref), grown.informed⟩, ?_⟩
    simp [remoteKey, handleOpen, newLineInfo_told]

/-- The line is the current one of a cached identity and can be completed; if an
open of its own has been generated, no other identity's job is in the way. -/
structure Accepted (prim : Primitives) (switch : THSwitch) (line : LineRef) : Prop where
  taken : Taken switch line
  registered : Registered (some line) switch
  remote : (remoteKey (switch.store.lines line)).isSome
  cached : ∃ hashname, switch.store.identityCache.lookup hashname = some (switch.toIdentity line)
  answers : (switch.store.lines line).inLineId.isSome →
    ∀ job, pendingFor prim switch (switch.toIdentity line) = some job →
      job.pending = switch.toIdentity line

/-- Taking an open changes neither the cache nor the name of an identity. -/
theorem takeLine_kept {opened : Opened} {lineKeys : KeyPair} {sender : IdentityRef}
    {lineId : Option Json} {time : Nat} {store after : Store} {given : Option LineRef}
    (taken : takeLine opened lineKeys sender lineId time store = .ok (after, given)) :
    after.identityCache = store.identityCache ∧ ∀ ref,
      (after.identities ref).hashname prim.sha256 =
        (store.identities ref).hashname prim.sha256 := by
  unfold takeLine at taken
  split at taken
  · obtain ⟨info, _, same⟩ := (bind_ok_iff _ _ _).mp taken
    cases same
    exact ⟨rfl, fun _ => rfl⟩
  · cases taken
    refine ⟨rfl, fun ref => ?_⟩
    by_cases same : ref = sender
    · rw [same, identities_updateIdentity_same]
      rfl
    · rw [identities_updateIdentity_other _ _ _ _ same]
      rfl

theorem hashname_closeChannels (store : Store) (sender ref : IdentityRef) :
    ((closeChannels sender store).identities ref).hashname prim.sha256 =
      (store.identities ref).hashname prim.sha256 := by
  by_cases same : ref = sender
  · subst same
    simp [closeChannels, Store.updateIdentity, THIdentity.hashname]
  · simp [closeChannels, Store.updateIdentity, same]

/-- A line that has an id was the current one before the open. -/
theorem takeLine_named {opened : Opened} {lineKeys : KeyPair} {sender : IdentityRef}
    {lineId : Option Json} {time : Nat} {store after : Store} {line : LineRef}
    (taken : takeLine opened lineKeys sender lineId time store = .ok (after, some line))
    (named : (after.lines line).inLineId.isSome) :
    (store.identities sender).currentLine = some line := by
  unfold takeLine at taken
  split at taken
  · rename_i held
    obtain ⟨info, _, same⟩ := (bind_ok_iff _ _ _).mp taken
    cases same
    exact held
  · cases taken
    simp [handleOpen, THLine.new] at named

theorem pendingFor_congr {store : Store}
    (names : ∀ ref, (store.identities ref).hashname prim.sha256 =
      (switch.store.identities ref).hashname prim.sha256) (ref : IdentityRef) :
    pendingFor prim { switch with store := store } ref = pendingFor prim switch ref := by
  unfold pendingFor samePeer
  simp only [names]

theorem accepted_takeOpen {opened : Opened} {lineKeys : KeyPair} {sender : IdentityRef}
    {store : Store} {line : LineRef} {own : THCipherSet} (wellformed : Wellformed none switch)
    (registered : Registered none switch)
    (cached : ∃ hashname, switch.store.identityCache.lookup hashname = some sender)
    (class_ : own.csid = opened.incomingCS.csid)
    (chosen : chooseCipherSet switch.cipherParts (switch.store.identities sender).cipherParts =
      some own)
    (ready : ∀ current, (switch.store.identities sender).currentLine = some current →
      Passes opened (switch.store.lines current) →
      (switch.store.lines current).inLineId.isSome ∧
        ∀ job, pendingFor prim switch sender = some job → job.pending = sender)
    (taken : takeOpen opened lineKeys sender switch.store = .ok (store, some line)) :
    Accepted prim { switch with store := store } line := by
  have given := takeOpen_taken wellformed class_ chosen taken
  have owner := (OpenAuthentication.takeOpen_given wellformed.known taken).2.1 line rfl
  obtain ⟨time, lineId, authentic, timed, rfl, young, new, taken⟩ :=
    (takeOpen_accepted_iff opened lineKeys sender switch.store store line).mp taken
  have passed : ∀ current, (switch.store.identities sender).currentLine = some current →
      (switch.store.lines current).inLineId.isSome ∧
        ∀ job, pendingFor prim switch sender = some job → job.pending = sender := by
    intro current held
    have line_ : currentLineOf switch.store sender = some (switch.store.lines current) := by
      rw [currentLineOf, held, Option.map_some]
    rw [line_] at young new
    exact ready current held ⟨authentic, time, timed, young, new⟩
  -- the store a replaced line leaves has other channels only
  obtain ⟨before, took, kept, knows, lines, current, names⟩ : ∃ before,
      takeLine opened lineKeys sender (opened.inner.objectForKey "line") time before =
        .ok (store, some line) ∧
      Registered none { switch with store := before } ∧
      Wellformed none { switch with store := before } ∧ before.lines = switch.store.lines ∧
      (before.identities sender).currentLine = (switch.store.identities sender).currentLine ∧
      before.identityCache = switch.store.identityCache ∧
      ∀ ref, (before.identities ref).hashname prim.sha256 =
        (switch.store.identities ref).hashname prim.sha256 := by
    split at taken
    · exact ⟨_, taken, registered_closeChannels registered sender,
        wellformed_closeChannels wellformed sender, rfl, by simp [closeChannels], rfl,
        hashname_closeChannels switch.store sender⟩
    · exact ⟨_, taken, registered, wellformed, rfl, rfl, rfl, fun _ => rfl⟩
  obtain ⟨listed, told⟩ := registered_takeLine kept knows (by
    intro held same
    rw [current] at same
    have informed := registered.informed held (passed held same).1
    simpa only [lines] using informed) took
  obtain ⟨cache, hashnames⟩ := @takeLine_kept prim _ _ _ _ _ _ _ _ took
  refine ⟨given, listed, told, ?_, ?_⟩
  · rw [toIdentity, owner, cache, names.1]
    exact cached
  · intro held job queued
    have was := takeLine_named took held
    rw [current] at was
    rw [toIdentity, owner] at queued ⊢
    have same : pendingFor prim { switch with store := store } sender =
        pendingFor prim switch sender :=
      pendingFor_congr (fun ref => (hashnames ref).trans (names.2 ref)) sender
    exact (passed line was).2 job (same.symm.trans queued)

theorem hashname_setKeys {store : Store} {sender : IdentityRef} {hashname : String}
    (named : (store.identities sender).hashnameCache = some hashname) (parts : Option Parts)
    (cipherSet : THCipherSet) (ref : IdentityRef) :
    ((store.updateIdentity sender (THIdentity.setKeys parts cipherSet)).identities ref).hashname
      prim.sha256 = (store.identities ref).hashname prim.sha256 := by
  by_cases same : ref = sender
  · subst same
    simp [THIdentity.hashname, THIdentity.setKeys, named]
  · rw [identities_updateIdentity_other _ _ _ _ same]

/-- A current line of the sender that the open can complete has had its own
open generated, and the first job for the hashname is of the sender itself. -/
def Ready (prim : Primitives) (switch : THSwitch) (opened : Opened) (sender : IdentityRef) :
    Prop :=
  ∀ line, (switch.store.identities sender).currentLine = some line →
    Passes opened (switch.store.lines line) →
    (switch.store.lines line).inLineId.isSome ∧
      ∀ job, pendingFor prim switch sender = some job → job.pending = sender

/-- The switch takes the open for the sender it has looked up, or leaves it. -/
theorem takeOpen_ready {opened : Opened} {lineKeys : KeyPair} {sender : IdentityRef}
    {reached store : Store} {given : Option LineRef} {hashname : String}
    (wellformed : Wellformed none { switch with store := reached })
    (registered : Registered none { switch with store := reached })
    (held : (switch.cipherParts.lookup opened.incomingCS.csid.identifier).isSome)
    (cached : reached.identityCache.lookup hashname = some sender)
    (keyed : (reached.identities sender).cipherParts =
      .single opened.incomingCS.csid.identifier opened.incomingCS)
    (ready : Ready prim { switch with store := reached } opened sender)
    (taken : takeOpen opened lineKeys sender reached = .ok (store, given)) :
    (given = none ∧ Registered none { switch with store := store }) ∨
      ∃ line, given = some line ∧ Accepted prim { switch with store := store } line := by
  cases given with
  | none =>
      obtain ⟨rfl, _⟩ := (takeOpen_rejected_iff opened lineKeys sender reached store).mp taken
      exact Or.inl ⟨rfl, registered⟩
  | some line =>
      obtain ⟨own, owned⟩ := Option.isSome_iff_exists.mp held
      have class_ : own.csid = opened.incomingCS.csid :=
        (identifier_injective (wellformed.ownKeys _ own owned)).symm
      have chosen : chooseCipherSet switch.cipherParts (reached.identities sender).cipherParts =
          some own := by
        rw [keyed, chooseCipherSet_single owned opened.incomingCS]
      have gives := accepted_takeOpen wellformed registered ⟨_, cached⟩ class_ chosen ready taken
      exact Or.inr ⟨line, rfl, gives⟩

theorem acceptOpen_accepted {opened : Opened} {lineKeys : KeyPair} {store : Store}
    {given : Option LineRef} {parts : Option Parts} (wellformed : Wellformed none switch)
    (registered : Registered none switch)
    (held : (switch.cipherParts.lookup opened.incomingCS.csid.identifier).isSome)
    (readParts : partsOf (opened.inner.objectForKey "from") = .ok parts)
    (ready : ∀ sender, switch.store.identityCache.lookup (hashnameForParts prim.sha256 parts) =
      some sender → Ready prim switch opened sender)
    (accepted : acceptOpen prim opened lineKeys switch.store = .ok (store, given)) :
    (given = none ∧ Registered none { switch with store := store }) ∨
      ∃ line, given = some line ∧ Accepted prim { switch with store := store } line := by
  have knows := @wellformed_identityFromParts prim switch none wellformed parts opened.incomingCS
  have listed := @registered_identityFromParts prim switch none none registered wellformed parts
    opened.incomingCS
  cases found : switch.store.identityCache.lookup (hashnameForParts prim.sha256 parts) with
  | some sender =>
      rw [OpenAuthentication.acceptOpen_known prim lineKeys readParts found] at accepted
      rw [identityFromParts_known prim.sha256 _ found] at knows listed
      refine takeOpen_ready knows listed held found (by simp [THIdentity.setKeys]) ?_ accepted
      intro line current passes
      have named := (wellformed.known.keyed _ sender found).2
      have before := ready sender found line (by
        simpa [THIdentity.setKeys] using current) passes
      refine ⟨before.1, fun job queued => before.2 job ?_⟩
      rw [← queued]
      exact (pendingFor_congr (hashname_setKeys named parts opened.incomingCS) sender).symm
  | none =>
      by_cases belongs : keyMatches prim.sha256 parts opened.incomingCS
      · rw [OpenAuthentication.acceptOpen_new prim lineKeys readParts found belongs] at accepted
        rw [identityFromParts_new prim.sha256 found belongs] at knows listed
        have cached := lookup_insert_same switch.store.identityCache
          (hashnameForParts prim.sha256 parts) switch.store.nextIdentity
        refine takeOpen_ready knows listed held cached
          (by simp [Store.cacheIdentity, THIdentity.setKeys]) ?_ accepted
        intro line current
        simp [Store.cacheIdentity, THIdentity.setKeys, THIdentity.init] at current
      · rw [OpenAuthentication.acceptOpen_foreign prim lineKeys readParts found belongs] at accepted
        cases accepted
        exact Or.inl ⟨rfl, registered⟩

/-! ## Opens -/

/-- Sending an open leaves identities as they are, and of each line what it was
told and whom it is to. -/
theorem sendOpen_kept {fresh : Fresh} {line : LineRef} (wellformed : Wellformed unsent switch)
    (sending : sendOpen prim switch fresh line = .ok after) :
    after.store.identities = switch.store.identities ∧
      after.store.identityCache = switch.store.identityCache ∧
      ∀ ref, after.toIdentity ref = switch.toIdentity ref ∧
        remoteKey (after.store.lines ref) = remoteKey (switch.store.lines ref) := by
  obtain ⟨sent, ⟨_, rfl⟩ | ⟨info, lineId, opened, _, prepares, rfl⟩⟩ :=
    sendOpen_cases wellformed sending
  · exact ⟨rfl, rfl, fun _ => ⟨rfl, rfl⟩⟩
  · refine ⟨rfl, rfl, ?_⟩
    exact forall_updateLine switch.store
      (fun ref held => held.toIdentity = switch.toIdentity ref ∧
        remoteKey held = remoteKey (switch.store.lines ref))
      ⟨prepares.owner, prepares.remote⟩ fun _ _ => ⟨rfl, rfl⟩

/-- The open completes the very line it has given. -/
theorem registered_completeOpen {fresh : Fresh} {returnPath : Option THPath} {line : LineRef}
    (accepted : Accepted prim switch line)
    (completed : completeOpen prim switch fresh returnPath line = .ok after) :
    Registered none after := by
  have forgotten := registered_forgotten accepted.registered fun other same =>
    (Option.some.inj same).symm
  obtain ⟨_, _, _, kept⟩ :=
    usePath_kept returnPath (switch.store.identities (switch.toIdentity line))
  have pathed := registered_updateIdentity forgotten (switch.toIdentity line)
    (usePath returnPath) fun _ _ _ _ => kept
  have cleared : Registered none (unqueued prim switch returnPath line) := { pathed with }
  have current : ((unqueued prim switch returnPath line).store.identities
      (switch.toIdentity line)).currentLine = some line := by
    simp only [unqueued, updateStore, identities_updateIdentity_same]
    rw [kept]
    exact accepted.taken.current
  rcases completeOpen_cases completed with
    ⟨job, other, queued, named, held, registering⟩ | ⟨_, answered, sending, registering⟩
  · rw [accepted.answers named job queued, current] at held
    cases held
    have wellformed : Wellformed none (unqueued prim switch returnPath line) :=
      wellformed_unqueued (taken_named accepted.taken named) returnPath line
    exact registered_openAndRegister cleared wellformed current accepted.cached accepted.remote
      registering
  · obtain ⟨before, unqueuedKnown⟩ : ∃ before,
        Wellformed before (unqueued prim switch returnPath line) := by
      rcases accepted.taken.ready with wellformed | ⟨wellformed, _⟩
      · exact ⟨_, wellformed_unqueued wellformed returnPath line⟩
      · exact ⟨_, wellformed_unqueued wellformed returnPath line⟩
    have sent := registered_sendOpen cleared unqueuedKnown sending
    obtain ⟨identities, cache, lines⟩ := sendOpen_kept unqueuedKnown sending
    refine registered_openAndRegister sent (wellformed_answered accepted.taken sending) ?_ ?_ ?_
      registering
    · rw [(lines line).1, identities]
      exact current
    · rw [(lines line).1, cache]
      exact accepted.cached
    · rw [(lines line).2]
      exact accepted.remote

variable (prim) in
/-- Every open that arrives finds its sender ready. -/
def OpensAnswered (switch : THSwitch) : Event → Prop
  | .processOpen _ packet => ∀ own opened parts sender, ownSet switch packet = some own →
      openWith prim own packet = .ok (some opened) →
      partsOf (opened.inner.objectForKey "from") = .ok parts →
      switch.store.identityCache.lookup (hashnameForParts prim.sha256 parts) = some sender →
      Ready prim switch opened sender
  | _ => True

theorem registered_processOpen {fresh : Fresh} {packet : THPacket}
    (registered : Registered none switch) (wellformed : Wellformed none switch)
    (answered : OpensAnswered prim switch (.processOpen fresh packet))
    (processed : Switch.processOpen prim switch fresh packet = .ok after) :
    Registered none after := by
  rcases processOpen_cases processed with rfl | ⟨own, opened, found, read, received⟩
  · exact registered
  · obtain ⟨⟨store, given⟩, accepted, received⟩ := (bind_ok_iff _ _ _).mp received
    obtain ⟨parts, readParts, _⟩ := (bind_ok_iff _ _ _).mp accepted
    rcases acceptOpen_accepted wellformed registered (ownSet_class wellformed found read).2
        readParts (fun sender => answered own opened parts sender found read readParts) accepted
      with ⟨rfl, kept⟩ | ⟨line, rfl, taken⟩
    · cases received
      exact kept
    · exact registered_completeOpen taken received

/-! ## Opening lines -/

theorem registered_openLine {fresh : Fresh} {peerChannel : Option ChannelRef} {ref : IdentityRef}
    (registered : Registered none switch) (wellformed : Wellformed none switch)
    (opening : Switch.openLine prim switch fresh peerChannel ref = .ok after) :
    Registered none after := by
  rcases openLine_cases opening with rfl | ⟨jobs, next, opened, opens, rfl⟩
  · exact registered
  · have queued : Registered none { switch with pendingJobs := jobs, nextJob := next } :=
      { registered with }
    have knows : Wellformed none { switch with pendingJobs := jobs, nextJob := next } :=
      { wellformed with }
    have whole : Registered none opened := by
      rcases opens with rfl | sending
      · exact queued
      · exact registered_sendOpen (registered_withCurrentLine queued knows ref)
          (wellformed_withCurrentLine knows ref) sending
    unfold tryVias
    dsimp only
    split
    · exact registered_updateIdentity whole ref _ fun _ _ _ _ => rfl
    · exact whole

theorem registered_loadSeed {fresh : Fresh} {peerChannel : Option ChannelRef} {entry : SeedEntry}
    (registered : Registered none switch) (wellformed : Wellformed none switch)
    (loading : loadSeed prim switch fresh peerChannel entry = .ok after) :
    Registered none after := by
  obtain ⟨seed, built, opening⟩ := (bind_ok_iff _ _ _).mp loading
  obtain ⟨unlined, keyed, _⟩ := seedIdentity_ok built
  exact registered_openLine (registered_allocIdentity registered wellformed seed)
    (wellformed_allocIdentity wellformed unlined keyed
      (sound_allocIdentity wellformed.known unlined)) opening

theorem registered_connect {relayFresh fresh : Fresh} {relayPeer : Option ChannelRef}
    {request : Connect} (registered : Registered none switch)
    (wellformed : Wellformed none switch)
    (connecting : connect prim switch relayFresh fresh relayPeer request = .ok after) :
    Registered none after := by
  obtain ⟨store, known, looked, done⟩ := connect_cases connecting
  have knows := wellformed_connectPeer wellformed looked
  have found : Registered none { switch with store := store } := by
    rcases connectPeer_ok looked with rfl | ⟨parts, cipherSet, rfl⟩
    · exact registered
    · exact registered_identityFromParts registered wellformed parts cipherSet
  rcases done with ⟨_, rfl⟩ | ⟨peer, relayed, _, relaying, opening⟩
  · exact found
  · have forsaken := registered_forsake found peer
    obtain ⟨_, _, _, line⟩ := addPaths_kept request.paths
      ((forsake { switch with store := store } peer).store.identities peer)
    have there : Registered none (reached switch request store peer) :=
      registered_updateIdentity forsaken peer _ fun _ _ _ _ => line
    have relaid : Registered none relayed := by
      unfold openRelayChannel at relaying
      split at relaying
      · cases relaying
        exact there
      · exact registered_openLine there (wellformed_reached request peer knows) relaying
    have relates := registered_updateIdentity relaid peer
      (fun identity => { identity with relay := some ⟨some request.peerChannel⟩ })
      fun _ _ _ _ => rfl
    have relaidKnown := wellformed_openRelayChannel (wellformed_reached request peer knows)
      relaying
    exact registered_openLine relates (wellformed_related request peer relaidKnown) opening

/-! ## Runs -/

theorem registered_perform {event : Event} (registered : Registered none switch)
    (wellformed : Wellformed none switch) (answered : OpensAnswered prim switch event)
    (performed : perform prim switch event = .ok after) : Registered none after := by
  cases event with
  | loadSeed fresh peerChannel entry => exact registered_loadSeed registered wellformed performed
  | identityFromHashname hashname =>
      cases performed
      exact registered_identityFromHashname registered wellformed hashname
  | identityFromParts parts cipherSet =>
      cases performed
      exact registered_identityFromParts registered wellformed parts cipherSet
  | addCipherSet identity cipherSet =>
      cases performed
      exact registered_updateIdentity registered identity _ fun _ _ _ _ =>
        (OpenAuthentication.addCipherSet_kept prim _ cipherSet).2
  | openLine fresh peerChannel toIdentity =>
      exact registered_openLine registered wellformed performed
  | processOpen fresh incomingPacket =>
      exact registered_processOpen registered wellformed answered performed
  | connect relayFresh fresh relayPeer request =>
      exact registered_connect registered wellformed performed
  | resetIdentity identity =>
      cases performed
      exact registered_resetIdentity registered wellformed identity
  | closeLine line =>
      cases performed
      exact registered_closeLine registered line
  | lineTimeout job toIdentity =>
      cases performed
      exact registered_lineTimeout registered job toIdentity
  | sendOpen fresh identity =>
      change sendOpenTo prim switch fresh identity = .ok after at performed
      unfold sendOpenTo at performed
      split at performed
      · cases performed
        exact registered
      · exact registered_sendOpen registered wellformed performed
  | routes identity routes =>
      cases performed
      exact registered_updateIdentity registered identity routes.set fun _ _ _ _ => rfl

theorem registered_step {event : Event} (registered : Registered none switch)
    (wellformed : Wellformed none switch) (answered : OpensAnswered prim switch event) :
    Registered none (step prim switch event) := by
  rcases @step_ok prim switch event with same | performed
  · rw [same]
    exact registered
  · exact registered_perform registered wellformed answered performed

end Keeping

theorem registered_start {switch : THSwitch} (starts : Starts switch) :
    Registered none switch where
  entries := by
    intro lineId line found
    rw [starts.closed] at found
    cases found
  working := by
    intro lineId line found
    rw [starts.closed] at found
    cases found
  informed := by
    intro line named
    rw [starts.store] at named
    cases named

/-- In a run from the start whose opens all find their sender ready, the table of
open lines is in order in every state. -/
theorem open_lines_in_order (prim : Primitives) (start : THSwitch) (starts : Starts start)
    (events : List Event) (answered : Along (step prim) (OpensAnswered prim) start events) :
    Throughout (step prim) (InOrder prim) start events := by
  have preserved : ∀ switch event, OpensAnswered prim switch event →
      Registered none switch ∧ Wellformed none switch →
      Registered none (step prim switch event) ∧ Wellformed none (step prim switch event) :=
    fun switch event answered both =>
      ⟨registered_step both.1 both.2 answered, wellformed_step event both.2⟩
  have kept := throughout_invariant preserved start events
    ⟨registered_start starts, wellformed_start starts⟩ answered
  exact throughout_mono (fun switch both => registered_inOrder both.1 both.2) start events kept

/-! The peer opens a line and, with its seed loaded once more, opens it again. -/

def answeredTwice : List Event :=
  [.processOpen drawn (open2aAt 49), .processOpen drawn (open2aAt 53)]

def peerEntry : SeedEntry := ⟨[1], none, some peerParts, [⟨[]⟩]⟩

def seedReloaded : List Event :=
  [.processOpen drawn (open2aAt 49),
    .loadSeed ⟨⟨[6], [6]⟩, "cc", 2⟩ none peerEntry,
    .processOpen drawn (open2aAt 53)]

set_option maxRecDepth 20000 in
theorem answeredTwice_ready :
    Along (step sealingPrimitives) (OpensAnswered sealingPrimitives) switchAtStart
      answeredTwice := by
  refine ⟨?_, ?_, trivial⟩
  · intro own opened parts sender found read partly known
    cases known
  · intro own opened parts sender found read partly known
    have own_ : some own = some ⟨.cs2a, [9], some []⟩ := found.symm
    cases own_
    cases open2aAt_read.2.symm.trans read
    have parts_ : Except.ok parts = Except.ok (some peerParts) := partly.symm
    cases parts_
    have sender_ : some sender = some 0 := known.symm
    cases sender_
    intro line current passes
    have line_ : some line = some 0 := current.symm
    cases line_
    refine ⟨rfl, fun job queued => ?_⟩
    cases queued

theorem answeredTwice_in_order :
    Throughout (step sealingPrimitives) (InOrder sealingPrimitives) switchAtStart answeredTwice :=
  open_lines_in_order sealingPrimitives switchAtStart starts_atStart answeredTwice
    answeredTwice_ready

set_option maxRecDepth 20000 in
theorem seedReloaded_registers :
    (run (step sealingPrimitives) switchAtStart seedReloaded).openLines.lookup "cc" = some 1 ∧
      encryptorKey ((run (step sealingPrimitives) switchAtStart seedReloaded).store.lines 1) =
        none :=
  ⟨rfl, rfl⟩

/-- The second open finishes the line of the seed, which has no remote key. -/
theorem reloaded_seed_registered_unkeyed :
    ¬ Throughout (step sealingPrimitives) (InOrder sealingPrimitives) switchAtStart
      seedReloaded := by
  intro inOrder
  have last := (throughout_iff switchAtStart seedReloaded).mp inOrder seedReloaded
    (List.prefix_refl _)
  obtain ⟨registered, unkeyed⟩ := seedReloaded_registers
  have keyed := (last.working "cc" 1 registered).encrypts
  rw [unkeyed] at keyed
  cases keyed

end Telehash.OpenLines
