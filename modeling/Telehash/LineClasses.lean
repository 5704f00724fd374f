import Telehash.SwitchSound

/-!
Which class of line info the methods of a cipher set get to work on. The casts
of THCipherSet2a.m and THCipherSet3a.m check nothing, so each use of the info of
a line is listed with the set that uses it, in the order of the calls.
-/

namespace Telehash.LineClasses
open Association Foundation Packet Identity CipherSet Switch LineInfo THSwitch Runs
open SwitchRuns SwitchSound

/-- A method of a set of this class takes the info for one of its own. -/
structure Use where
  csid : CipherSetId
  info : THCipherSetLineInfo

def Use.Fits (use : Use) : Prop := csidOf use.info = use.csid

section Uses
variable (prim : Primitives)

/-- `processOpen:` of a cipher set uses the info of a current line it takes over. -/
def takeUses (opened : Opened) (sender : IdentityRef) (store : Store) : List Use :=
  let current := currentLineOf store sender
  match opened.authentic, readNumber (opened.inner.objectForKey "at") with
  | .ok true, .ok time =>
      if olderThanCurrent current time then []
      else match reopensCurrent current (opened.inner.objectForKey "line") time with
        | .ok false => (current.bind THLine.cipherSetInfo).toList.map fun info =>
            ⟨opened.incomingCS.csid, info⟩
        | _ => []
  | _, _ => []

/-- `generateOpen:from:` makes an info where the line has none. A cached open
is sent again without it. -/
def generateUses (switch : THSwitch) (fresh : Fresh) (line : LineRef) : List Use :=
  match switch.cachedOpen line, chosenFor switch line with
  | none, some own =>
      let remote := (switch.store.identities (switch.toIdentity line)).cipherParts.lookup
        own.csid.identifier
      [⟨own.csid, (switch.store.lines line).cipherSetInfo.getD
        (startLineInfo own.csid remote fresh.lineKeys)⟩]
  | _, _ => []

/-- `finalizeLineKeys:` is sent to the set in the info itself. -/
def finalizeUses (switch : THSwitch) (line : LineRef) : List Use :=
  match (switch.store.lines line).cipherSetInfo with
  | none => []
  | some info => (cipherSetOf info).toList.map fun cipherSet => ⟨cipherSet.csid, info⟩

def completeUses (switch : THSwitch) (fresh : Fresh) (returnPath : Option THPath)
    (line : LineRef) : List Use :=
  match pendingFor prim switch (switch.toIdentity line), (switch.store.lines line).inLineId with
  | some job, some _ =>
      match ((unqueued prim switch returnPath line).store.identities job.pending).currentLine with
      | none => []
      | some current => finalizeUses (unqueued prim switch returnPath line) current
  | _, _ =>
      generateUses (unqueued prim switch returnPath line) fresh line ++
        match sendOpen prim (unqueued prim switch returnPath line) fresh line with
        | .ok answered => finalizeUses answered line
        | .error _ => []

def receiveUses (switch : THSwitch) (fresh : Fresh) (returnPath : Option THPath)
    (opened : Opened) : List Use :=
  match partsOf (opened.inner.objectForKey "from") with
  | .error _ => []
  | .ok parts =>
      match identityFromParts prim.sha256 parts opened.incomingCS switch.store with
      | (_, none) => []
      | (looked, some sender) =>
          takeUses opened sender looked ++
            match acceptOpen prim opened fresh.lineKeys switch.store with
            | .ok (store, some line) =>
                completeUses prim { switch with store := store } fresh returnPath line
            | _ => []

def processUses (switch : THSwitch) (fresh : Fresh) (packet : THPacket) : List Use :=
  match ownSet switch packet with
  | none => []
  | some own =>
      match openWith prim own packet with
      | .ok (some opened) => receiveUses prim switch fresh packet.returnPath opened
      | _ => []

-- The job that is queued first touches no line.
def openLineUses (switch : THSwitch) (fresh : Fresh) (toIdentity : IdentityRef) : List Use :=
  let identity := switch.store.identities toIdentity
  if identity.currentLine.isSome ∧
      (identity.activePath.isSome ∨ (identity.relay.bind THRelay.peerChannel).isSome) then []
  else if identity.availablePaths ≠ [] ∧ 0 < identity.cipherParts.count then
    let (lined, line) := withCurrentLine switch toIdentity
    generateUses lined fresh line
  else []

def loadSeedUses (switch : THSwitch) (fresh : Fresh) (entry : SeedEntry) : List Use :=
  match seedIdentity prim entry with
  | .error _ => []
  | .ok seed =>
      openLineUses (switch.updateStore fun store => store.allocIdentity seed) fresh
        switch.store.nextIdentity

def relayUses (switch : THSwitch) (fresh : Fresh) (relayIdentity : IdentityRef) : List Use :=
  match (switch.store.identities relayIdentity).currentLine with
  | some _ => []
  | none => openLineUses switch fresh relayIdentity

def connectUses (switch : THSwitch) (relayFresh fresh : Fresh) (relayPeer : Option ChannelRef)
    (request : Connect) : List Use :=
  match connectPeer prim switch request with
  | .ok (store, some peer) =>
      relayUses (reached switch request store peer) relayFresh request.relayIdentity ++
        match openRelayChannel prim (reached switch request store peer) relayFresh relayPeer
          request.relayIdentity with
        | .error _ => []
        | .ok relayed => openLineUses (related relayed request peer) fresh peer
  | _ => []

def uses (switch : THSwitch) : Event → List Use
  | .loadSeed fresh _ entry => loadSeedUses prim switch fresh entry
  | .openLine fresh _ toIdentity => openLineUses switch fresh toIdentity
  | .processOpen fresh incomingPacket => processUses prim switch fresh incomingPacket
  | .connect relayFresh fresh relayPeer request =>
      connectUses prim switch relayFresh fresh relayPeer request
  | .sendOpen fresh identity =>
      match (switch.store.identities identity).currentLine with
      | none => []
      | some line => generateUses switch fresh line
  | .identityFromHashname _ | .identityFromParts _ _ | .addCipherSet _ _ | .resetIdentity _
  | .closeLine _ | .lineTimeout _ _ | .routes _ _ => []

end Uses

/-- The set whose method runs is the one the info is of. -/
def WellDriven (prim : Primitives) (switch : THSwitch) (event : Event) : Prop :=
  ∀ use ∈ uses prim switch event, use.Fits

/-- An open that passes while its sender has a current line with a line info is
under the cipher set of that info. -/
def OpensMatch (prim : Primitives) (switch : THSwitch) : Event → Prop
  | .processOpen _ packet => ∀ own opened parts sender line info,
      ownSet switch packet = some own → openWith prim own packet = .ok (some opened) →
      partsOf (opened.inner.objectForKey "from") = .ok parts →
      switch.store.identityCache.lookup (hashnameForParts prim.sha256 parts) = some sender →
      (switch.store.identities sender).currentLine = some line →
      (switch.store.lines line).cipherSetInfo = some info →
      Passes opened (switch.store.lines line) → csidOf info = own.csid
  | _ => True

section Fitting
variable {prim : Primitives} {switch : THSwitch} {unsent : Option LineRef}

theorem startLineInfo_class (csid : CipherSetId) (cipherSet : Option THCipherSet)
    (lineKeys : KeyPair) : csidOf (startLineInfo csid cipherSet lineKeys) = csid := by
  cases csid <;> rfl

/-- Opens are generated for the sets the sender is left with by the last one. -/
theorem generateUses_fit {ref : IdentityRef} {line : LineRef} (fresh : Fresh)
    (wellformed : Wellformed unsent switch)
    (expected : unsent = none ∨ (unsent = some line ∧ ∃ own info,
      chosenFor switch line = some own ∧ (switch.store.lines line).cipherSetInfo = some info ∧
      csidOf info = own.csid))
    (current : (switch.store.identities ref).currentLine = some line) :
    ∀ use ∈ generateUses switch fresh line, use.Fits := by
  unfold generateUses
  split
  · rename_i own uncached chosen
    intro use member
    cases List.mem_singleton.mp member
    change csidOf _ = own.csid
    cases stored : (switch.store.lines line).cipherSetInfo with
    | none => exact startLineInfo_class own.csid _ fresh.lineKeys
    | some info =>
        rw [Option.getD_some]
        rcases expected with rfl | ⟨_, other, held, same, known, class_⟩
        · have cached := wellformed.cached ref line current (Option.some_ne_none line)
            (by rw [stored]; rfl)
          rw [uncached] at cached
          cases cached
        · rw [chosen] at same
          rw [stored] at known
          cases same
          cases known
          exact class_
  · exact List.forall_mem_nil _

theorem finalizeUses_fit (wellformed : Wellformed unsent switch) (line : LineRef) :
    ∀ use ∈ finalizeUses switch line, use.Fits := by
  unfold finalizeUses
  split
  · exact List.forall_mem_nil _
  · rename_i info stored
    obtain ⟨cipherSet, held, same⟩ := wellformed.infos line info stored
    rw [held]
    intro use member
    cases List.mem_singleton.mp member
    exact same.symm

theorem completeUses_fit {line : LineRef} (taken : Taken switch line) (fresh : Fresh)
    (returnPath : Option THPath) :
    ∀ use ∈ completeUses prim switch fresh returnPath line, use.Fits := by
  have current : ((unqueued prim switch returnPath line).store.identities
      (switch.toIdentity line)).currentLine = some line := by
    obtain ⟨_, _, _, kept⟩ :=
      usePath_kept returnPath (switch.store.identities (switch.toIdentity line))
    simp only [unqueued, updateStore, identities_updateIdentity_same]
    rw [kept]
    exact taken.current
  unfold completeUses
  split
  · rename_i named
    split
    · exact List.forall_mem_nil _
    · have wellformed := taken_named taken (by rw [named]; rfl)
      exact finalizeUses_fit (wellformed_unqueued wellformed returnPath line) _
  · refine List.forall_mem_append.mpr ⟨?_, ?_⟩
    · rcases taken.ready with wellformed | ⟨wellformed, _, own, info, chosen, stored, class_⟩
      · exact generateUses_fit fresh (wellformed_unqueued wellformed returnPath line)
          (Or.inl rfl) current
      · refine generateUses_fit fresh (wellformed_unqueued wellformed returnPath line)
          (Or.inr ⟨rfl, own, info, ?_, stored, class_⟩) current
        rw [chosenFor_unqueued]
        exact chosen
    · split
      · rename_i answered sending
        exact finalizeUses_fit (wellformed_answered taken sending) line
      · exact List.forall_mem_nil _

/-- The one use that is not the doing of the line's own set. -/
theorem takeUses_fit_iff (opened : Opened) (sender : IdentityRef) (store : Store) :
    (∀ use ∈ takeUses opened sender store, use.Fits) ↔
      ∀ line info, (store.identities sender).currentLine = some line →
        (store.lines line).cipherSetInfo = some info → Passes opened (store.lines line) →
        csidOf info = opened.incomingCS.csid := by
  constructor
  · rintro fits line info held stored ⟨authentic, time, timed, young, new⟩
    have current : currentLineOf store sender = some (store.lines line) := by
      rw [currentLineOf, held, Option.map_some]
    refine fits ⟨opened.incomingCS.csid, info⟩ ?_
    unfold takeUses
    simp [authentic, timed, current, young, new, stored]
  · intro matches_
    unfold takeUses
    split
    · rename_i time authentic timed
      dsimp only
      split
      · exact List.forall_mem_nil _
      rename_i young
      split
      · rename_i fresh
        intro use member
        obtain ⟨info, found, rfl⟩ := List.mem_map.mp member
        obtain ⟨current, held, stored⟩ := Option.bind_eq_some_iff.mp (Option.mem_toList.mp found)
        obtain ⟨line, lined, rfl⟩ := Option.map_eq_some_iff.mp held
        rw [held] at young fresh
        exact matches_ line info lined stored
          ⟨authentic, time, timed, Bool.not_eq_true _ |>.mp young, fresh⟩
      · exact List.forall_mem_nil _
    · exact List.forall_mem_nil _

/-- An open meets the line its sender had before, whatever keys it brings. -/
theorem receiveUses_fit_iff {opened : Opened} {parts : Option Parts} (fresh : Fresh)
    (returnPath : Option THPath) (wellformed : Wellformed none switch)
    (held : (switch.cipherParts.lookup opened.incomingCS.csid.identifier).isSome)
    (read : partsOf (opened.inner.objectForKey "from") = .ok parts) :
    (∀ use ∈ receiveUses prim switch fresh returnPath opened, use.Fits) ↔
      ∀ sender,
        switch.store.identityCache.lookup (hashnameForParts prim.sha256 parts) = some sender →
        ∀ line info, (switch.store.identities sender).currentLine = some line →
        (switch.store.lines line).cipherSetInfo = some info →
        Passes opened (switch.store.lines line) → csidOf info = opened.incomingCS.csid := by
  have behind : ∀ use ∈ (match acceptOpen prim opened fresh.lineKeys switch.store with
      | .ok (store, some line) =>
          completeUses prim { switch with store := store } fresh returnPath line
      | _ => []), use.Fits := by
    split
    · rename_i store line accepted
      rcases acceptOpen_taken wellformed held accepted with ⟨absent, _⟩ | ⟨_, same, taken⟩
      · cases absent
      · cases same
        exact completeUses_fit taken fresh returnPath
    · exact List.forall_mem_nil _
  unfold receiveUses
  simp only [read]
  cases found : switch.store.identityCache.lookup (hashnameForParts prim.sha256 parts) with
  | some sender =>
      rw [identityFromParts_known prim.sha256 _ found]
      dsimp only
      rw [List.forall_mem_append, and_iff_left behind, takeUses_fit_iff]
      simp only [identities_updateIdentity_same, lines_updateIdentity, THIdentity.setKeys,
        Option.some.injEq, forall_eq']
  | none =>
      simp only [reduceCtorEq, false_implies, implies_true, iff_true]
      by_cases belongs : keyMatches prim.sha256 parts opened.incomingCS
      · rw [identityFromParts_new prim.sha256 found belongs]
        dsimp only
        rw [List.forall_mem_append, and_iff_left behind, takeUses_fit_iff]
        intro line info lined
        simp [Store.cacheIdentity, THIdentity.setKeys, THIdentity.init] at lined
      · rw [identityFromParts_foreign prim.sha256 found belongs]
        exact List.forall_mem_nil _

theorem openLineUses_fit (wellformed : Wellformed none switch) (fresh : Fresh)
    (ref : IdentityRef) : ∀ use ∈ openLineUses switch fresh ref, use.Fits := by
  unfold openLineUses
  dsimp only
  split
  · exact List.forall_mem_nil _
  · split
    · have current : ((withCurrentLine switch ref).1.store.identities ref).currentLine =
          some (withCurrentLine switch ref).2 := by
        unfold withCurrentLine
        split
        · rename_i held
          exact held
        · simp [updateStore]
      exact generateUses_fit fresh (wellformed_withCurrentLine wellformed ref) (Or.inl rfl) current
    · exact List.forall_mem_nil _

theorem connectUses_fit (wellformed : Wellformed none switch) (relayFresh fresh : Fresh)
    (relayPeer : Option ChannelRef) (request : Connect) :
    ∀ use ∈ connectUses prim switch relayFresh fresh relayPeer request, use.Fits := by
  unfold connectUses
  split
  · rename_i store peer looked
    have there := wellformed_reached request peer (wellformed_connectPeer wellformed looked)
    refine List.forall_mem_append.mpr ⟨?_, ?_⟩
    · unfold relayUses
      split
      · exact List.forall_mem_nil _
      · exact openLineUses_fit there relayFresh request.relayIdentity
    · split
      · exact List.forall_mem_nil _
      · rename_i relayed relaying
        have relaid := wellformed_openRelayChannel there relaying
        exact openLineUses_fit (wellformed_related request peer relaid) fresh peer
  · exact List.forall_mem_nil _

theorem processUses_fit_iff (wellformed : Wellformed none switch) (fresh : Fresh)
    (packet : THPacket) :
    (∀ use ∈ processUses prim switch fresh packet, use.Fits) ↔
      OpensMatch prim switch (.processOpen fresh packet) := by
  have unread : (∀ own opened parts, ownSet switch packet = some own →
      openWith prim own packet = .ok (some opened) →
      partsOf (opened.inner.objectForKey "from") ≠ .ok parts) →
      ((∀ use ∈ ([] : List Use), use.Fits) ↔ OpensMatch prim switch (.processOpen fresh packet)) :=
    fun absent => ⟨fun _ own opened parts _ _ _ found read partly =>
      (absent own opened parts found read partly).elim, fun _ => List.forall_mem_nil _⟩
  unfold processUses
  cases found : ownSet switch packet with
  | none => exact unread fun own opened parts same => nomatch found.symm.trans same
  | some own =>
      dsimp only
      cases read : openWith prim own packet with
      | error fault =>
          refine unread fun other opened parts same opens => ?_
          cases found.symm.trans same
          cases read.symm.trans opens
      | ok result =>
          cases result with
          | none =>
              refine unread fun other opened parts same opens => ?_
              cases found.symm.trans same
              cases read.symm.trans opens
          | some opened =>
              obtain ⟨class_, held⟩ := ownSet_class wellformed found read
              cases readParts : partsOf (opened.inner.objectForKey "from") with
              | error fault =>
                  have none : receiveUses prim switch fresh packet.returnPath opened = [] := by
                    simp [receiveUses, readParts]
                  dsimp only
                  rw [none]
                  refine unread fun other reading parts same opens partly => ?_
                  cases found.symm.trans same
                  cases read.symm.trans opens
                  cases readParts.symm.trans partly
              | ok parts =>
                  dsimp only
                  rw [receiveUses_fit_iff fresh packet.returnPath wellformed held readParts]
                  constructor
                  · rintro fits other reading others sender line info same opens partly known
                    cases found.symm.trans same
                    cases read.symm.trans opens
                    cases readParts.symm.trans partly
                    rw [← class_]
                    exact fits sender known line info
                  · intro matches_ sender known line info
                    rw [class_]
                    exact matches_ own opened parts sender line info found read readParts known

theorem wellDriven_iff (event : Event) (wellformed : Wellformed none switch) :
    WellDriven prim switch event ↔ OpensMatch prim switch event := by
  have fitting : ∀ {list : List Use}, (∀ use ∈ list, use.Fits) →
      ((∀ use ∈ list, use.Fits) ↔ True) := fun fits => iff_true_intro fits
  unfold WellDriven
  cases event with
  | loadSeed fresh peerChannel entry =>
      refine fitting ?_
      unfold uses loadSeedUses
      dsimp only
      split
      · exact List.forall_mem_nil _
      · rename_i seed built
        obtain ⟨unlined, keyed, _⟩ := seedIdentity_ok built
        exact openLineUses_fit (wellformed_allocIdentity wellformed unlined keyed
          (sound_allocIdentity wellformed.known unlined)) fresh _
  | openLine fresh peerChannel toIdentity =>
      exact fitting (openLineUses_fit wellformed fresh toIdentity)
  | processOpen fresh packet => exact processUses_fit_iff wellformed fresh packet
  | connect relayFresh fresh relayPeer request =>
      exact fitting (connectUses_fit wellformed relayFresh fresh relayPeer request)
  | sendOpen fresh identity =>
      refine fitting ?_
      unfold uses
      dsimp only
      split
      · exact List.forall_mem_nil _
      · rename_i line current
        exact generateUses_fit fresh wellformed (Or.inl rfl) current
  | identityFromHashname _ | identityFromParts _ _ | addCipherSet _ _ | resetIdentity _
  | closeLine _ | lineTimeout _ _ | routes _ _ => exact fitting (List.forall_mem_nil _)

end Fitting

/-- In a run from the start, every method of a cipher set works on a line info of
its own class exactly when no open that passes the checks is under another set
than the line info its sender's current line has. -/
theorem lines_driven_rightly_iff (prim : Primitives) (start : THSwitch) (starts : Starts start)
    (events : List Event) :
    Along (step prim) (WellDriven prim) start events ↔
      Along (step prim) (OpensMatch prim) start events := by
  refine along_congr_invariant (fun switch event _ => wellformed_step event)
    (fun switch event _ => wellDriven_iff event) start events (wellformed_start starts)
    (along_true start events)

/-! The switch sends a 3a open to a peer it knows by both sets, and the peer's
own open of the same moment is under 2a. -/

def crossedOpens : List Event :=
  [.identityFromParts (some peerParts) (peerSet .cs3a), .addCipherSet 0 (peerSet .cs2a),
    .routes 0 onePath, .openLine drawn none 0]

def behindOwnOpen : THSwitch := run (step sealingPrimitives) switchAtStart crossedOpens

theorem behindOwnOpen_line :
    ∃ info, (behindOwnOpen.store.lines 0).cipherSetInfo = some (.info3a info) :=
  ⟨_, rfl⟩

set_option maxRecDepth 20000 in
theorem crossing_mismatched :
    ¬ OpensMatch sealingPrimitives behindOwnOpen (.processOpen drawn (open2aAt 49)) := by
  intro matches_
  obtain ⟨info, stored⟩ := behindOwnOpen_line
  have own : ownSet behindOwnOpen (open2aAt 49) = some ⟨.cs2a, [9], some []⟩ := rfl
  have parts : partsOf ((opened2aAt 49 1).inner.objectForKey "from") = .ok (some peerParts) := rfl
  have same := matches_ _ _ _ 0 0 _ own open2aAt_read.1 parts rfl rfl stored
    ⟨rfl, 1, rfl, rfl, rfl⟩
  cases same

def HoldsBoth (identity : THIdentity) : Prop :=
  ∀ csid, identity.cipherParts.lookup csid.identifier = some (peerSet csid)

/-- The 2a set then takes the 3a info of the line for one of its own. -/
theorem crossed_opens_misdrive :
    HoldsBoth (behindOwnOpen.store.identities 0) ∧
      ¬ Along (step sealingPrimitives) (WellDriven sealingPrimitives) switchAtStart
        (crossedOpens ++ [.processOpen drawn (open2aAt 49)]) := by
  refine ⟨fun csid => by cases csid <;> rfl, fun along => ?_⟩
  have last := ((along_append switchAtStart crossedOpens _).mp along).2.1
  have kept : Wellformed none behindOwnOpen :=
    run_invariant (fun _ event _ => wellformed_step event) switchAtStart crossedOpens
      (wellformed_start starts_atStart) (along_true _ _)
  exact crossing_mismatched ((wellDriven_iff _ kept).mp last)

set_option maxRecDepth 20000 in
/-- Two opens under 2a meet one line of that class. -/
theorem second_open_drives_rightly :
    Along (step sealingPrimitives) (WellDriven sealingPrimitives) switchAtStart
      [.processOpen drawn (open2aAt 49), .processOpen drawn (open2aAt 53)] := by
  refine (lines_driven_rightly_iff sealingPrimitives switchAtStart starts_atStart _).mpr
    ⟨?_, ?_, trivial⟩
  · intro own opened parts sender line info found read partly known
    cases known
  · intro own opened parts sender line info found read partly known current stored passes
    have own_ : some own = some ⟨.cs2a, [9], some []⟩ := found.symm
    cases own_
    cases open2aAt_read.2.symm.trans read
    have parts_ : Except.ok parts = Except.ok (some peerParts) := partly.symm
    cases parts_
    have sender_ : some sender = some 0 := known.symm
    cases sender_
    have line_ : some line = some 0 := current.symm
    cases line_
    cases stored
    rfl

end Telehash.LineClasses
