import Telehash.LineInfo
import Telehash.OpenAuthentication

/-!
One switch and its lines to one peer. The invariant says what every line, every
open sent and every registered line is made of; each operation of the switch
keeps it, whatever of the peer's opens arrives.
-/

namespace Telehash.LineEnd
open Association Foundation Packet Identity CipherSet Switch LineInfo THSwitch
open OpenAuthentication (acceptOpen_known)

def ownHashname (sha256 : Data → Data) (cipherParts : CipherParts) : String :=
  hashnameForParts sha256 (some (fingerprintParts sha256 cipherParts))

def HasSet (csid : CipherSetId) (cipherParts : CipherParts) : Prop :=
  ∃ cipherSet, cipherParts.lookup csid.identifier = some cipherSet ∧ cipherSet.csid = csid

/-- Both have a cipher set of this id, and it is the highest they share. -/
structure Uses (csid : CipherSetId) (own theirs : CipherParts) : Prop where
  held : HasSet csid own
  known : HasSet csid theirs
  chosen : (sharedIds own theirs).head? = some csid.identifier

/-- One end: its keys and the peer's, the peer's identity here, the opens the
peer has sent and those this end had sent before. -/
structure Setting where
  csid : CipherSetId
  own : CipherParts
  theirs : CipherParts
  peer : IdentityRef
  heard : List Opened
  earlier : List Opened

variable (prim : Primitives) (generated : KeyPair → Prop) (setting : Setting)

/-- An open that speaks for the line. -/
def Speaks (line : THLine) (opened : Opened) : Prop :=
  Announces setting.csid line opened ∧ Signed prim setting.csid setting.own opened

/-- A bare line has no line info yet; the keys of a stale one are out of date. -/
structure Sound (bare stale : Option LineRef) (switch : THSwitch) : Prop where
  ownParts : switch.cipherParts = setting.own
  known : switch.store.identityCache.lookup (ownHashname prim.sha256 setting.theirs) =
    some setting.peer
  uses : Uses setting.csid setting.own (switch.store.identities setting.peer).cipherParts
  current : ∀ line, (switch.store.identities setting.peer).currentLine = some line →
    line < switch.store.nextLine
  owned : ∀ line < switch.store.nextLine, switch.toIdentity line = setting.peer
  pending : ∀ job ∈ switch.pendingJobs, job.pending = setting.peer
  distinct : ∀ one < switch.store.nextLine, ∀ two < switch.store.nextLine, ∀ lineId,
    (switch.store.lines one).inLineId = some lineId →
    (switch.store.lines two).inLineId = some lineId → one = two
  cached : ∀ line opened, switch.cachedOpen line = some opened →
    line < switch.store.nextLine ∧ Speaks prim setting (switch.store.lines line) opened
  sent : ∀ opened ∈ switch.sent, ∃ line < switch.store.nextLine,
    Speaks prim setting (switch.store.lines line) opened
  kept : ∀ opened ∈ setting.earlier, opened ∈ switch.sent
  told : ∀ line < switch.store.nextLine, Heard setting.heard (switch.store.lines line)
  equipped : ∀ line < switch.store.nextLine, some line ≠ bare →
    Equipped generated setting.csid (switch.store.lines line)
  registered : ∀ lineId line, switch.openLines.lookup lineId = some line →
    line < switch.store.nextLine ∧ (switch.store.lines line).inLineId = some lineId ∧
      (some line ≠ stale → Finalized prim generated setting.csid (switch.store.lines line))

variable {prim generated setting} {bare stale : Option LineRef} {switch : THSwitch}

theorem speaks_extends {before after : THLine} {opened : Opened} (extends_ : Extends before after)
    (speaks : Speaks prim setting before opened) : Speaks prim setting after opened :=
  ⟨announces_extends extends_ speaks.1, speaks.2⟩

/-! ## Choice of the cipher set -/

theorem chooses {own theirs : CipherParts} {csid : CipherSetId} (uses : Uses csid own theirs) :
    ∃ cipherSet, chooseCipherSet own theirs = some cipherSet ∧ cipherSet.csid = csid := by
  obtain ⟨cipherSet, found, class_⟩ := uses.held
  have chosen := uses.chosen
  unfold chooseCipherSet
  cases shared : sharedIds own theirs with
  | nil => rw [shared] at chosen; cases chosen
  | cons first rest =>
      rw [shared] at chosen
      cases chosen
      exact ⟨cipherSet, found, class_⟩

/-- A peer known by one set alone is spoken to with that set. -/
theorem uses_single {own theirs : CipherParts} {cipherSet : THCipherSet} {csid : CipherSetId}
    (uses : Uses csid own theirs) (class_ : cipherSet.csid = csid) :
    Uses csid own (.single cipherSet.csid.identifier cipherSet) := by
  subst class_
  obtain ⟨mine, found, _⟩ := uses.held
  exact ⟨uses.held, ⟨cipherSet, by simp, rfl⟩, head_sharedIds_single found cipherSet⟩

/-! ## Changes of one part -/

/-- A store with the same lines, in which the peer has other keys of the set in
use or another of its lines. -/
theorem sound_store {store : Store} (sound : Sound prim generated setting bare stale switch)
    (cache : store.identityCache = switch.store.identityCache)
    (lines : store.lines = switch.store.lines) (next : store.nextLine = switch.store.nextLine)
    (uses : Uses setting.csid setting.own (store.identities setting.peer).cipherParts)
    (current : ∀ line, (store.identities setting.peer).currentLine = some line →
      line < store.nextLine) :
    Sound prim generated setting bare stale { switch with store := store } where
  ownParts := sound.ownParts
  known := cache ▸ sound.known
  uses := uses
  current := current
  owned := by simpa only [toIdentity, lines, next] using sound.owned
  pending := sound.pending
  distinct := by simpa only [lines, next] using sound.distinct
  cached := by simpa only [lines, next] using sound.cached
  sent := by simpa only [lines, next] using sound.sent
  kept := sound.kept
  told := by simpa only [lines, next] using sound.told
  equipped := by simpa only [lines, next] using sound.equipped
  registered := by simpa only [lines, next] using sound.registered

theorem sound_updateIdentity (sound : Sound prim generated setting bare stale switch)
    (ref : IdentityRef) (change : THIdentity → THIdentity)
    (uses : ref = setting.peer →
      Uses setting.csid setting.own (change (switch.store.identities ref)).cipherParts)
    (current : ref = setting.peer → ∀ line,
      (change (switch.store.identities ref)).currentLine = some line →
      line < switch.store.nextLine) :
    Sound prim generated setting bare stale
      (switch.updateStore fun store => store.updateIdentity ref change) := by
  by_cases same : ref = setting.peer
  · have at_ : (switch.store.updateIdentity ref change).identities setting.peer =
        change (switch.store.identities ref) := by
      rw [← same, identities_updateIdentity_same]
    exact sound_store sound rfl rfl rfl (at_ ▸ uses same) (at_ ▸ current same)
  · have at_ : (switch.store.updateIdentity ref change).identities setting.peer =
        switch.store.identities setting.peer :=
      identities_updateIdentity_other _ _ _ _ (Ne.symm same)
    exact sound_store sound rfl rfl rfl (at_ ▸ sound.uses) (at_ ▸ sound.current)

/-- A change that leaves the keys of an identity and does not give it a line. -/
theorem sound_identity (sound : Sound prim generated setting bare stale switch)
    (ref : IdentityRef) (change : THIdentity → THIdentity)
    (keys : (change (switch.store.identities ref)).cipherParts =
      (switch.store.identities ref).cipherParts)
    (line : (change (switch.store.identities ref)).currentLine = none ∨
      (change (switch.store.identities ref)).currentLine =
        (switch.store.identities ref).currentLine) :
    Sound prim generated setting bare stale
      (switch.updateStore fun store => store.updateIdentity ref change) := by
  refine sound_updateIdentity sound ref change ?_ ?_
  · rintro rfl
    rw [keys]
    exact sound.uses
  · rintro rfl held current
    rcases line with none | same
    · rw [none] at current
      cases current
    · exact sound.current held (same ▸ current)

theorem sound_pending {jobs : List THPendingJob} {nextJob : Nat}
    (sound : Sound prim generated setting bare stale switch)
    (pending : ∀ job ∈ jobs, job.pending = setting.peer) :
    Sound prim generated setting bare stale
      { switch with pendingJobs := jobs, nextJob := nextJob } :=
  { sound with pending := pending }

/-- A new line of the peer that no open has spoken for. -/
theorem sound_allocLine (sound : Sound prim generated setting bare stale switch) {line : THLine}
    (owner : line.toIdentity = setting.peer) (unnamed : line.inLineId = none)
    (told : Heard setting.heard line)
    (equipped : some switch.store.nextLine ≠ bare → Equipped generated setting.csid line) :
    Sound prim generated setting bare stale
      (switch.updateStore fun store => store.allocLine line) := by
  have old : ∀ ref < switch.store.nextLine,
      (switch.store.allocLine line).lines ref = switch.store.lines ref := by
    intro ref inside
    simp [Store.allocLine, Nat.ne_of_lt inside]
  have more : ∀ {ref}, ref < switch.store.nextLine → ref < switch.store.nextLine + 1 :=
    Nat.lt_succ_of_lt
  have known := forall_allocLine switch.store
    (fun ref held => ∀ lineId, held.inLineId = some lineId →
      ref < switch.store.nextLine ∧ (switch.store.lines ref).inLineId = some lineId)
    (fun lineId named => by rw [unnamed] at named; cases named)
    fun ref inside lineId named => ⟨inside, named⟩
  refine
    { ownParts := sound.ownParts
      known := sound.known
      uses := sound.uses
      current := fun ref held => more (sound.current ref held)
      owned := forall_allocLine _ (fun _ held => held.toIdentity = setting.peer) owner sound.owned
      pending := sound.pending
      distinct := ?_
      cached := ?_
      sent := ?_
      kept := sound.kept
      told := forall_allocLine _ (fun _ held => Heard setting.heard held) told sound.told
      equipped := forall_allocLine _
        (fun ref held => some ref ≠ bare → Equipped generated setting.csid held)
        equipped sound.equipped
      registered := ?_ }
  · intro one insideOne two insideTwo lineId namedOne namedTwo
    obtain ⟨oldOne, heldOne⟩ := known one insideOne lineId namedOne
    obtain ⟨oldTwo, heldTwo⟩ := known two insideTwo lineId namedTwo
    exact sound.distinct one oldOne two oldTwo lineId heldOne heldTwo
  · intro ref opened held
    obtain ⟨inside, speaks⟩ := sound.cached ref opened held
    exact ⟨more inside, by simpa only [updateStore, old ref inside] using speaks⟩
  · intro opened member
    obtain ⟨ref, inside, speaks⟩ := sound.sent opened member
    exact ⟨ref, more inside, by simpa only [updateStore, old ref inside] using speaks⟩
  · intro lineId ref found
    obtain ⟨inside, held, final⟩ := sound.registered lineId ref found
    simp only [updateStore, old ref inside]
    exact ⟨more inside, held, final⟩

/-- A change to one line that keeps what was said of it. -/
theorem sound_updateLine (sound : Sound prim generated setting bare stale switch) {line : LineRef}
    (change : THLine → THLine)
    (extends_ : Extends (switch.store.lines line) (change (switch.store.lines line)))
    (named : ∀ lineId, (change (switch.store.lines line)).inLineId = some lineId →
      (switch.store.lines line).inLineId = some lineId ∨
        ∀ other < switch.store.nextLine, (switch.store.lines other).inLineId ≠ some lineId)
    (told : Heard setting.heard (change (switch.store.lines line)))
    (equipped : some line ≠ bare →
      Equipped generated setting.csid (change (switch.store.lines line)))
    (finalized : some line ≠ stale →
      Finalized prim generated setting.csid (switch.store.lines line) →
      Finalized prim generated setting.csid (change (switch.store.lines line))) :
    Sound prim generated setting bare stale
      (switch.updateStore fun store => store.updateLine line change) := by
  have keeps := forall_updateLine switch.store
    (fun ref held => ∀ opened, Speaks prim setting (switch.store.lines ref) opened →
      Speaks prim setting held opened)
    (fun _ speaks => speaks_extends extends_ speaks) fun _ _ _ speaks => speaks
  have before := forall_updateLine switch.store
    (fun ref held => ∀ lineId, held.inLineId = some lineId →
      (switch.store.lines ref).inLineId = some lineId ∨ (ref = line ∧
        ∀ other < switch.store.nextLine, (switch.store.lines other).inLineId ≠ some lineId))
    (fun lineId held => (named lineId held).imp_right fun fresh => ⟨rfl, fresh⟩)
    fun _ _ _ held => Or.inl held
  refine
    { ownParts := sound.ownParts
      known := sound.known
      uses := sound.uses
      current := sound.current
      owned := forall_updateLine _
        (fun ref held => ref < switch.store.nextLine → held.toIdentity = setting.peer)
        (fun inside => extends_.owner.trans (sound.owned line inside))
        fun ref _ => sound.owned ref
      pending := sound.pending
      distinct := ?_
      cached := ?_
      sent := ?_
      kept := sound.kept
      told := forall_updateLine _
        (fun ref held => ref < switch.store.nextLine → Heard setting.heard held)
        (fun _ => told) fun ref _ => sound.told ref
      equipped := forall_updateLine _
        (fun ref held => ref < switch.store.nextLine → some ref ≠ bare →
          Equipped generated setting.csid held)
        (fun _ => equipped) fun ref _ => sound.equipped ref
      registered := ?_ }
  · intro one insideOne two insideTwo lineId namedOne namedTwo
    rcases before one lineId namedOne with old | ⟨rfl, fresh⟩
    · rcases before two lineId namedTwo with alsoOld | ⟨rfl, fresh⟩
      · exact sound.distinct one insideOne two insideTwo lineId old alsoOld
      · exact absurd old (fresh one insideOne)
    · rcases before two lineId namedTwo with old | ⟨rfl, _⟩
      · exact absurd old (fresh two insideTwo)
      · rfl
  · intro ref opened held
    obtain ⟨inside, speaks⟩ := sound.cached ref opened held
    exact ⟨inside, keeps ref opened speaks⟩
  · intro opened member
    obtain ⟨ref, inside, speaks⟩ := sound.sent opened member
    exact ⟨ref, inside, keeps ref opened speaks⟩
  · intro lineId ref found
    obtain ⟨inside, held, final⟩ := sound.registered lineId ref found
    have after := forall_updateLine switch.store
      (fun ref held => (switch.store.lines ref).inLineId = some lineId →
        (some ref ≠ stale → Finalized prim generated setting.csid (switch.store.lines ref)) →
        held.inLineId = some lineId ∧
          (some ref ≠ stale → Finalized prim generated setting.csid held))
      (fun held final => ⟨extends_.lineId lineId held, fun fresh => finalized fresh (final fresh)⟩)
      fun _ _ held final => ⟨held, final⟩
    exact ⟨inside, after ref held final⟩

theorem sound_bare (sound : Sound prim generated setting none stale switch) (line : LineRef) :
    Sound prim generated setting (some line) stale switch :=
  { sound with equipped := fun ref inside _ => sound.equipped ref inside (by simp) }

theorem sound_stale (sound : Sound prim generated setting bare none switch) (line : LineRef) :
    Sound prim generated setting bare (some line) switch :=
  { sound with
    registered := fun lineId ref found =>
      have held := sound.registered lineId ref found
      ⟨held.1, held.2.1, fun _ => held.2.2 (by simp)⟩ }

/-- A bare line that got its info is like every other. -/
theorem sound_equipped {line : LineRef}
    (sound : Sound prim generated setting (some line) stale switch)
    (equipped : Equipped generated setting.csid (switch.store.lines line)) :
    Sound prim generated setting none stale switch :=
  { sound with
    equipped := fun ref inside _ => by
      by_cases same : ref = line
      · subst same
        exact equipped
      · exact sound.equipped ref inside (by simpa using same) }

theorem sound_sent (sound : Sound prim generated setting bare stale switch) {line : LineRef}
    {opened : Opened} (inside : line < switch.store.nextLine)
    (speaks : Speaks prim setting (switch.store.lines line) opened) :
    Sound prim generated setting bare stale (transmit switch line opened) := by
  unfold transmit
  dsimp only
  split
  · refine { sound with sent := ?_, kept := ?_ }
    · intro other member
      rcases List.mem_append.mp member with old | new
      · exact sound.sent other old
      · cases List.mem_singleton.mp new
        exact ⟨line, inside, speaks⟩
    · exact fun other member => List.mem_append_left _ (sound.kept other member)
  · exact sound

/-- Forgetting a line forgets its entry, the only place its keys stand. -/
theorem sound_forgetLine {line : LineRef}
    (sound : Sound prim generated setting bare (some line) switch) :
    Sound prim generated setting bare none (forgetLine switch line) := by
  unfold forgetLine
  split
  · rename_i unnamed
    refine { sound with registered := ?_ }
    intro lineId ref found
    obtain ⟨inside, held, final⟩ := sound.registered lineId ref found
    refine ⟨inside, held, fun _ => final ?_⟩
    rintro ⟨⟩
    rw [unnamed] at held
    cases held
  · rename_i lineId named
    refine { sound with registered := ?_ }
    intro other ref found
    dsimp only at found
    rw [lookup_erase] at found
    split at found
    · cases found
    · rename_i different
      obtain ⟨inside, held, final⟩ := sound.registered other ref found
      refine ⟨inside, held, fun _ => final ?_⟩
      rintro ⟨⟩
      rw [named] at held
      exact different (Option.some.inj held).symm

/-! ## Sending an open -/

variable (generated) in
/-- What one call draws: a generated key pair and an id no line here has. -/
structure Drawn (switch : THSwitch) (fresh : Fresh) : Prop where
  keys : generated fresh.lineKeys
  lineId : ∀ line < switch.store.nextLine,
    (switch.store.lines line).inLineId ≠ some fresh.lineId

/-- Lines and the remote keys on them are still there. -/
structure Lasts (before after : THSwitch) : Prop where
  next : after.store.nextLine = before.store.nextLine
  remote : ∀ line, remoteKey (after.store.lines line) = remoteKey (before.store.lines line)

theorem speaks_openFor {own : THCipherSet} {line : THLine} {keys : KeyPair}
    {recipient lineId : String}
    {time : Nat} (class_ : own.csid = setting.csid) (held : ownKeys line = some keys)
    (named : line.inLineId = some lineId) :
    Speaks prim setting line
      (openFor prim own setting.own recipient lineId time keys.publicKey) := by
  refine ⟨⟨keys, lineId, held, named, ?_, ?_⟩, ?_, class_⟩
  · simp [openFor, openJson, THPacket.objectForKey]
  · rw [← class_]
    rfl
  · have written :
        (openFor prim own setting.own recipient lineId time keys.publicKey).inner.objectForKey
        "from" = some (.object ((fingerprintParts prim.sha256 setting.own).entries.map
          fun entry => (entry.1, Json.string entry.2))) := by
      simp [openFor, openJson, THPacket.objectForKey, lookup_insert]
    rw [written, partsOf_written]

theorem generateOpen_ok {line : LineRef} {fresh : Fresh} {after : THSwitch}
    {opened : Option Opened} (sound : Sound prim generated setting bare none switch)
    (inside : line < switch.store.nextLine) (drawn : Drawn generated switch fresh)
    (only : bare = none ∨ (bare = some line ∧ (switch.store.lines line).cipherSetInfo = none))
    (built : generateOpen prim switch fresh line = .ok (after, opened)) :
    Sound prim generated setting none none after ∧ Lasts switch after ∧
      after.cachedOpen = switch.cachedOpen ∧
      ∃ sent, opened = some sent ∧ Speaks prim setting (after.store.lines line) sent := by
  have ready : (switch.store.lines line).cipherSetInfo = none ∨
      Equipped generated setting.csid (switch.store.lines line) := by
    rcases only with rfl | ⟨_, blank⟩
    · exact Or.inr (sound.equipped line inside (by simp))
    · exact Or.inl blank
  have whole : Sound prim generated setting (some line) none switch := by
    rcases only with rfl | ⟨rfl, _⟩
    · exact sound_bare sound line
    · exact sound
  have owner : (switch.store.lines line).toIdentity = setting.peer := sound.owned line inside
  obtain ⟨own, chosen, class_⟩ := chooses sound.uses
  obtain ⟨remote, found, remoteClass⟩ := sound.uses.known
  unfold generateOpen at built
  simp only [owner, sound.ownParts, chosen, class_, found] at built
  obtain ⟨⟨info, keys⟩, placed, built⟩ := (bind_ok_iff _ _ _).mp built
  simp only [pure_eq_ok, Except.ok.injEq, Prod.mk.injEq] at built
  obtain ⟨rfl, rfl⟩ := built
  generalize named : (switch.store.lines line).inLineId.getD fresh.lineId = lineId
  obtain ⟨prepares, equipped, infoKeys⟩ :=
    prepared_ok generated remoteClass drawn.keys ready placed named
  have updated := sound_updateLine whole
    (fun held => { held with cipherSetInfo := some info, inLineId := some lineId })
    prepares.toExtends
    (by
      intro id held
      cases old : (switch.store.lines line).inLineId with
      | some known =>
          rw [old] at named
          exact Or.inl ((congrArg some named).trans held)
      | none =>
          rw [old] at named
          cases held
          cases named
          exact Or.inr drawn.lineId)
    (heard_prepares prepares (sound.told line inside)) (fun _ => equipped)
    (fun _ => finalized_prepares prepares)
  have here : (switch.store.updateLine line fun held =>
      { held with cipherSetInfo := some info, inLineId := some lineId }).lines line =
      { switch.store.lines line with cipherSetInfo := some info, inLineId := some lineId } :=
    lines_updateLine_same _ _ _
  refine ⟨sound_equipped updated (by simpa only [updateStore, here] using equipped),
    ⟨rfl, ?_⟩, rfl, _, rfl, ?_⟩
  · simp only [updateStore]
    refine forall_updateLine switch.store
      (fun ref after => remoteKey after = remoteKey (switch.store.lines ref)) ?_ fun _ _ => rfl
    exact prepares.remote
  · simp only [updateStore, here]
    exact speaks_openFor class_ infoKeys rfl

theorem store_transmit (switch : THSwitch) (line : LineRef) (opened : Opened) :
    (transmit switch line opened).store = switch.store := by
  unfold transmit
  dsimp only
  split <;> rfl

theorem sendOpen_ok {line : LineRef} {fresh : Fresh} {after : THSwitch}
    (sound : Sound prim generated setting bare none switch)
    (inside : line < switch.store.nextLine) (drawn : Drawn generated switch fresh)
    (only : bare = none ∨ (bare = some line ∧ (switch.store.lines line).cipherSetInfo = none))
    (sending : sendOpen prim switch fresh line = .ok after) :
    Sound prim generated setting none none after ∧ Lasts switch after := by
  unfold sendOpen at sending
  split at sending
  · rename_i opened held
    cases sending
    obtain ⟨_, speaks⟩ := sound.cached line opened held
    have full : bare = none := by
      rcases only with none | ⟨_, blank⟩
      · exact none
      · obtain ⟨⟨keys, _, known, _⟩, _⟩ := speaks
        simp [ownKeys, blank] at known
    subst full
    refine ⟨sound_sent sound inside speaks, ?_, ?_⟩
    · rw [store_transmit]
    · intro ref
      rw [store_transmit]
  · obtain ⟨⟨prepared, opened⟩, built, sending⟩ := (bind_ok_iff _ _ _).mp sending
    obtain ⟨settled, lasts, unsent, sent, rfl, speaks⟩ :=
      generateOpen_ok sound inside drawn only built
    cases sending
    have cached : Sound prim generated setting none none
        { prepared with cachedOpen := Function.update switch.cachedOpen line (some sent) } := by
      refine { settled with cached := ?_ }
      intro ref opened held
      by_cases same : ref = line
      · subst same
        simp only [Function.update_self, Option.some.injEq] at held
        subst held
        exact ⟨lasts.next ▸ inside, speaks⟩
      · simp only [Function.update_of_ne same] at held
        exact settled.cached ref opened (unsent ▸ held)
    refine ⟨sound_sent cached (lasts.next ▸ inside) speaks, ?_, ?_⟩
    · rw [store_transmit]
      exact lasts.next
    · intro ref
      rw [store_transmit]
      exact lasts.remote ref

theorem openAndRegister_ok {line : LineRef} {remote : Data} {lineKeys : KeyPair} {after : THSwitch}
    (sound : Sound prim generated setting none none switch) (inside : line < switch.store.nextLine)
    (told : remoteKey (switch.store.lines line) = some remote) (drawn : generated lineKeys)
    (opening : openAndRegister prim switch lineKeys line = .ok after) :
    Sound prim generated setting none none after := by
  unfold openAndRegister at opening
  obtain ⟨finalized, keyed, opening⟩ := (bind_ok_iff _ _ _).mp opening
  have finish := fun (equipped : Equipped generated setting.csid _) (told : _ = some remote) =>
    finalizeLineKeys_ok prim generated drawn equipped told keyed
  obtain ⟨extends_, sameId, sameOut, sameRemote, equipped, final⟩ :=
    finish (sound.equipped line inside (by simp)) told
  split at opening
  · cases opening
  · rename_i lineId named
    cases opening
    have heard : Heard setting.heard { finalized with isOpen := true } := by
      have before := sound.told line inside
      unfold Heard at before ⊢
      rw [told] at before
      rw [show remoteKey { finalized with isOpen := true } = some remote from sameRemote,
        show ({ finalized with isOpen := true } : THLine).outLineId = _ from sameOut]
      exact before
    have grown : Extends (switch.store.lines line) { finalized with isOpen := true } :=
      ⟨extends_.owner, extends_.lineId, extends_.keys⟩
    have updated := sound_updateLine sound (fun _ => { finalized with isOpen := true }) grown
      (fun id held => Or.inl (sameId ▸ held)) heard (fun _ => equipped) (fun _ _ => final)
    refine { updated with registered := ?_ }
    intro id ref found
    dsimp only at found
    rw [lookup_insert] at found
    split at found
    · rename_i same
      cases found
      cases same
      refine ⟨inside, ?_, fun _ => ?_⟩
      · simp only [updateStore, lines_updateLine_same]
        exact sameId.trans named
      · simp only [updateStore, lines_updateLine_same]
        exact final
    · exact updated.registered id ref found

/-! ## Taking an open -/

/-- What was read off the wire is what was sent. -/
structure SameOpen (read sent : Opened) : Prop where
  json : read.inner.json = sent.inner.json
  cipherSet : read.incomingCS = sent.incomingCS
  remote : read.remoteKey = sent.remoteKey

theorem sameOpen_objectForKey {read sent : Opened} (same : SameOpen read sent) (key : String) :
    read.inner.objectForKey key = sent.inner.objectForKey key := by
  simp [THPacket.objectForKey, same.json]

variable (prim generated setting) in
/-- What a taken open leaves for the switch to finish. -/
structure Taken (before : THSwitch) (store : Store) (line : LineRef) : Prop where
  sound : Sound prim generated setting none (some line) { before with store := store }
  inside : line < store.nextLine
  remote : ∃ remote, remoteKey (store.lines line) = some remote
  current : (store.identities setting.peer).currentLine = some line
  names : ∀ ref < store.nextLine, ∀ lineId, (store.lines ref).inLineId = some lineId →
    ∃ other < before.store.nextLine, (before.store.lines other).inLineId = some lineId

/-- The line made for an open of a peer that has none. -/
theorem newLine_remote (cipherSet : THCipherSet) (remote : Data) (lineKeys : KeyPair)
    (lineId : Option Json) (time : Nat) (peer : IdentityRef) :
    remoteKey (handleOpen lineId time { THLine.new peer with
      cipherSetInfo := some (newLineInfo cipherSet remote lineKeys) }) = some remote := by
  cases class_ : cipherSet.csid <;> simp [remoteKey, handleOpen, newLineInfo, class_, remoteKeyOf]

theorem newLine_equipped {csid : CipherSetId} {cipherSet : THCipherSet} {lineKeys : KeyPair}
    (remote : Data) (lineId : Option Json) (time : Nat) (peer : IdentityRef)
    (class_ : cipherSet.csid = csid) (drawn : generated lineKeys) :
    Equipped generated csid (handleOpen lineId time { THLine.new peer with
      cipherSetInfo := some (newLineInfo cipherSet remote lineKeys) }) := by
  refine ⟨_, rfl, ?_, ?_, ?_⟩
  all_goals cases which : cipherSet.csid
  · simpa [newLineInfo, which, csidOf] using class_
  · simpa [newLineInfo, which, csidOf] using class_
  · simpa [newLineInfo, which, cipherSetOf] using class_
  · simpa [newLineInfo, which, cipherSetOf] using class_
  · simp [newLineInfo, which, keysOf]
  · simpa [newLineInfo, which, keysOf] using drawn

theorem takeLine_ok {opened sent : Opened} {lineKeys : KeyPair} {lineId : Option Json}
    {time : Nat} {store : Store} {line : LineRef}
    (sound : Sound prim generated setting none none switch) (drawn : generated lineKeys)
    (member : sent ∈ setting.heard) (same : SameOpen opened sent)
    (class_ : opened.incomingCS.csid = setting.csid)
    (named : opened.inner.objectForKey "line" = lineId)
    (taken : takeLine opened lineKeys setting.peer lineId time switch.store =
      .ok (store, some line)) : Taken prim generated setting switch store line := by
  have heard : ∀ after : THLine, after.outLineId = lineId →
      remoteKey after = some opened.remoteKey → Heard setting.heard after := by
    intro after out remote
    refine Or.inr ⟨sent, member, ?_, ?_⟩
    · rw [← sameOpen_objectForKey same, named, out]
    · rw [remote, same.remote]
  unfold takeLine at taken
  split at taken
  · rename_i current held
    obtain ⟨info, set, taken⟩ := (bind_ok_iff _ _ _).mp taken
    simp only [pure_eq_ok, Except.ok.injEq, Prod.mk.injEq, Option.some.injEq] at taken
    obtain ⟨rfl, rfl⟩ := taken
    have inside := sound.current current held
    rw [class_] at set
    obtain ⟨after, rfl, keys, remote, classAfter, setAfter, drawnAfter⟩ :=
      setRemoteKey_ok generated (sound.equipped current inside (by simp)) set
    refine ⟨sound_updateLine (sound_stale sound current) _ ?_ ?_ ?_ ?_ ?_, inside, ?_, held, ?_⟩
    · exact ⟨rfl, fun _ named => named, fun keys' held => keys.trans held⟩
    · exact fun _ named => Or.inl named
    · exact heard _ rfl remote
    · exact fun _ => ⟨after, rfl, classAfter, setAfter, drawnAfter⟩
    · exact fun other => absurd rfl other
    · refine ⟨opened.remoteKey, ?_⟩
      rw [lines_updateLine_same]
      exact remote
    · exact forall_updateLine switch.store
        (fun ref after => ref < switch.store.nextLine → ∀ id, after.inLineId = some id →
          ∃ other < switch.store.nextLine, (switch.store.lines other).inLineId = some id)
        (fun inner _ has => ⟨current, inner, has⟩) fun ref _ inner _ has => ⟨ref, inner, has⟩
  · cases taken
    have remote := newLine_remote opened.incomingCS opened.remoteKey lineKeys lineId time
      setting.peer
    have equipped := newLine_equipped opened.remoteKey lineId time setting.peer class_ drawn
    have grown := sound_allocLine (sound_stale sound switch.store.nextLine) (by rfl) (by rfl)
      (heard _ rfl remote) (fun _ => equipped)
    refine ⟨sound_updateIdentity grown setting.peer _ (fun _ => grown.uses) ?_,
      Nat.lt_succ_self _, ⟨opened.remoteKey, ?_⟩, ?_, ?_⟩
    · intro _ line same
      cases same
      exact Nat.lt_succ_self _
    · simpa using remote
    · rw [identities_updateIdentity_same]
    · exact forall_allocLine switch.store
        (fun _ after => ∀ id, after.inLineId = some id →
          ∃ other < switch.store.nextLine, (switch.store.lines other).inLineId = some id)
        (fun _ has => nomatch has) fun ref before _ has => ⟨ref, before, has⟩

theorem sound_closeChannels (sound : Sound prim generated setting bare stale switch) :
    Sound prim generated setting bare stale
      { switch with store := closeChannels setting.peer switch.store } := by
  refine sound_store sound rfl rfl rfl ?_ ?_
  · simpa [closeChannels] using sound.uses
  · intro line held
    simp only [closeChannels, identities_updateIdentity_same] at held
    exact sound.current line held

/-- An open the peer has sent is turned away or gives the one line to the peer. -/
theorem acceptOpen_ok {opened sent : Opened} {lineKeys : KeyPair} {store : Store}
    {given : Option LineRef} (sound : Sound prim generated setting none none switch)
    (drawn : generated lineKeys) (member : sent ∈ setting.heard) (same : SameOpen opened sent)
    (signed : Signed prim setting.csid setting.theirs sent)
    (accepted : acceptOpen prim opened lineKeys switch.store = .ok (store, given)) :
    (given = none ∧ Sound prim generated setting none none { switch with store := store }) ∨
      ∃ line, given = some line ∧ Taken prim generated setting switch store line := by
  have class_ : opened.incomingCS.csid = setting.csid := by
    rw [same.cipherSet]
    exact signed.2
  have from_ := signed.1
  rw [← sameOpen_objectForKey same] at from_
  rw [acceptOpen_known prim lineKeys from_ sound.known] at accepted
  have keyed := sound_updateIdentity sound setting.peer
    (THIdentity.setKeys (some (fingerprintParts prim.sha256 setting.theirs)) opened.incomingCS)
    (fun _ => uses_single sound.uses class_) (fun _ => sound.current)
  cases given with
  | none =>
      obtain ⟨rfl, _⟩ := (takeOpen_rejected_iff opened lineKeys setting.peer _ _).mp accepted
      exact Or.inl ⟨rfl, keyed⟩
  | some line =>
      obtain ⟨time, lineId, _, _, named, _, _, taken⟩ :=
        (takeOpen_accepted_iff opened lineKeys setting.peer _ _ _).mp accepted
      refine Or.inr ⟨line, rfl, ?_⟩
      split at taken
      · obtain ⟨after, inside, remote, current, names⟩ :=
          takeLine_ok (sound_closeChannels keyed) drawn member same class_ named taken
        exact ⟨after, inside, remote, current, names⟩
      · obtain ⟨after, inside, remote, current, names⟩ :=
          takeLine_ok keyed drawn member same class_ named taken
        exact ⟨after, inside, remote, current, names⟩

theorem store_forgetLine (switch : THSwitch) (line : LineRef) :
    (forgetLine switch line).store = switch.store := by
  unfold forgetLine
  split <;> rfl

/-- Whichever way the open is completed, it is the line just taken that is
finalized and registered. -/
theorem completeOpen_ok {fresh : Fresh} {returnPath : Option THPath} {line : LineRef}
    {after : THSwitch} (sound : Sound prim generated setting none (some line) switch)
    (inside : line < switch.store.nextLine)
    (told : ∃ remote, remoteKey (switch.store.lines line) = some remote)
    (current : (switch.store.identities setting.peer).currentLine = some line)
    (drawn : Drawn generated switch fresh)
    (completed : completeOpen prim switch fresh returnPath line = .ok after) :
    Sound prim generated setting none none after := by
  have owner : switch.toIdentity line = setting.peer := sound.owned line inside
  obtain ⟨remote, told⟩ := told
  unfold completeOpen at completed
  rw [owner] at completed
  dsimp only at completed
  have keeps : ∀ identity, (usePath returnPath identity).cipherParts = identity.cipherParts ∧
      (usePath returnPath identity).currentLine = identity.currentLine := by
    intro identity
    cases returnPath <;> exact ⟨rfl, rfl⟩
  have pathed := sound_identity sound setting.peer (usePath returnPath) (keeps _).1
    (Or.inr (keeps _).2)
  have cleared := sound_forgetLine pathed
  generalize forgotten : forgetLine (switch.updateStore fun store =>
    store.updateIdentity setting.peer (usePath returnPath)) line = left at cleared completed
  have store : left.store = switch.store.updateIdentity setting.peer (usePath returnPath) := by
    rw [← forgotten, store_forgetLine]
    rfl
  generalize rest : left.pendingJobs.eraseP
    (fun job => samePeer prim left job.pending setting.peer) = jobs at completed
  have unqueued : Sound prim generated setting none none { left with pendingJobs := jobs } := by
    refine sound_pending cleared ?_
    intro job member
    rw [← rest] at member
    exact cleared.pending job (List.mem_of_mem_eraseP member)
  have insideNow : line < left.store.nextLine := by
    rw [store]
    exact inside
  have toldNow : remoteKey (left.store.lines line) = some remote := by
    rw [store]
    exact told
  split at completed
  · rename_i job _ found _
    have pending := cleared.pending job (List.mem_of_find?_eq_some found)
    have currentNow : (left.store.identities job.pending).currentLine = some line := by
      rw [pending, store, identities_updateIdentity_same, (keeps _).2]
      exact current
    simp only [currentNow] at completed
    exact openAndRegister_ok unqueued insideNow toldNow drawn.keys completed
  · obtain ⟨answered, sending, completed⟩ := (bind_ok_iff _ _ _).mp completed
    have drawnNow : Drawn generated { left with pendingJobs := jobs } fresh := by
      refine ⟨drawn.keys, ?_⟩
      simp only [store]
      exact drawn.lineId
    obtain ⟨settled, lasts⟩ := sendOpen_ok unqueued insideNow drawnNow (Or.inl rfl) sending
    exact openAndRegister_ok settled (lasts.next ▸ insideNow) ((lasts.remote line).trans toldNow)
      drawn.keys completed

theorem receiveOpen_ok {opened sent : Opened} {fresh : Fresh} {returnPath : Option THPath}
    {after : THSwitch} (sound : Sound prim generated setting none none switch)
    (drawn : Drawn generated switch fresh) (member : sent ∈ setting.heard)
    (same : SameOpen opened sent) (signed : Signed prim setting.csid setting.theirs sent)
    (received : receiveOpen prim switch fresh returnPath opened = .ok after) :
    Sound prim generated setting none none after := by
  unfold receiveOpen at received
  obtain ⟨⟨store, given⟩, accepted, received⟩ := (bind_ok_iff _ _ _).mp received
  rcases acceptOpen_ok sound drawn.keys member same signed accepted with
    ⟨rfl, settled⟩ | ⟨line, rfl, taken⟩
  · cases received
    exact settled
  · refine completeOpen_ok taken.sound taken.inside taken.remote taken.current
      ⟨drawn.keys, ?_⟩ received
    intro ref inside named
    obtain ⟨other, before, held⟩ := taken.names ref inside _ named
    exact drawn.lineId other before held

variable (prim) in
/-- What a cipher set of the receiver reads in the packet, the peer has sent. -/
def Genuine (opens : List Opened) (switch : THSwitch) (packet : THPacket) : Prop :=
  ∀ id own opened, switch.cipherParts.lookup id = some own →
    openWith prim own packet = .ok (some opened) → ∃ sent ∈ opens, SameOpen opened sent

theorem processOpen_ok {fresh : Fresh} {packet : THPacket} {after : THSwitch}
    (sound : Sound prim generated setting none none switch)
    (drawn : Drawn generated switch fresh)
    (signed : ∀ sent ∈ setting.heard, Signed prim setting.csid setting.theirs sent)
    (genuine : Genuine prim setting.heard switch packet)
    (processed : Switch.processOpen prim switch fresh packet = .ok after) :
    Sound prim generated setting none none after := by
  unfold Switch.processOpen at processed
  obtain ⟨csid, _, processed⟩ := (bind_ok_iff _ _ _).mp processed
  split at processed
  · cases processed
    exact sound
  · rename_i own found
    obtain ⟨read, opens, processed⟩ := (bind_ok_iff _ _ _).mp processed
    split at processed
    · cases processed
      exact sound
    · rename_i opened
      obtain ⟨sent, member, same⟩ := genuine _ own opened found opens
      exact receiveOpen_ok sound drawn member same (signed sent member) processed

/-! ## Opening and closing -/

theorem sound_tryVias (sound : Sound prim generated setting bare stale switch)
    (peerChannel : Option ChannelRef) :
    Sound prim generated setting bare stale (tryVias switch setting.peer peerChannel) := by
  unfold tryVias
  dsimp only
  split
  · exact sound_identity sound _ _ rfl (Or.inr rfl)
  · exact sound

theorem openLine_ok {fresh : Fresh} {peerChannel : Option ChannelRef} {after : THSwitch}
    (sound : Sound prim generated setting none none switch)
    (drawn : Drawn generated switch fresh)
    (opening : openLine prim switch fresh peerChannel setting.peer = .ok after) :
    Sound prim generated setting none none after := by
  unfold openLine at opening
  dsimp only at opening
  split at opening
  · cases opening
    exact sound
  · generalize queuing : (if switch.pendingJobs.any fun job =>
        samePeer prim switch job.pending setting.peer then switch
      else { switch with
        pendingJobs := switch.pendingJobs ++ [⟨switch.nextJob, setting.peer⟩]
        nextJob := switch.nextJob + 1 }) = queued
    at opening
    have waiting : Sound prim generated setting none none queued ∧
        queued.store = switch.store := by
      rw [← queuing]
      split
      · exact ⟨sound, rfl⟩
      · refine ⟨sound_pending sound ?_, rfl⟩
        intro job member
        rcases List.mem_append.mp member with old | new
        · exact sound.pending job old
        · cases List.mem_singleton.mp new
          rfl
    obtain ⟨whole, store⟩ := waiting
    have drawnNow : Drawn generated queued fresh := by
      refine ⟨drawn.keys, ?_⟩
      rw [store]
      exact drawn.lineId
    split at opening
    · obtain ⟨sent, sending, opening⟩ := (bind_ok_iff _ _ _).mp opening
      cases opening
      apply sound_tryVias
      unfold withCurrentLine at sending
      split at sending
      · rename_i line held
        exact (sendOpen_ok whole (whole.current line held) drawnNow (Or.inl rfl) sending).1
      · have blank : Heard setting.heard (.new setting.peer) := Or.inl ⟨rfl, rfl⟩
        have grown := sound_allocLine (sound_bare whole queued.store.nextLine) (by rfl) (by rfl)
          blank (fun other => absurd rfl other)
        have lined := sound_updateIdentity grown setting.peer
          (fun identity => { identity with currentLine := some queued.store.nextLine })
          (fun _ => grown.uses) (fun _ line same => by cases same; exact Nat.lt_succ_self _)
        refine (sendOpen_ok lined (Nat.lt_succ_self _) ⟨drawn.keys, ?_⟩
          (Or.inr ⟨rfl, ?_⟩) sending).1
        · intro ref inside named
          rcases Nat.lt_succ_iff_lt_or_eq.mp inside with before | rfl
          · refine drawnNow.lineId ref before ?_
            simpa [updateStore, Store.allocLine, Nat.ne_of_lt before] using named
          · simp [updateStore, THLine.new] at named
        · simp [updateStore, THLine.new]
    · cases opening
      exact sound_tryVias whole peerChannel

theorem pingLine_ok {fresh : Fresh} {line : LineRef} {after : THSwitch}
    (sound : Sound prim generated setting none none switch)
    (drawn : Drawn generated switch fresh)
    (current : (switch.store.identities setting.peer).currentLine = some line)
    (sending : sendOpen prim switch fresh line = .ok after) :
    Sound prim generated setting none none after :=
  (sendOpen_ok sound (sound.current line current) drawn (Or.inl rfl) sending).1

theorem sound_lineTimeout (sound : Sound prim generated setting bare stale switch)
    (job : Nat) (ref : IdentityRef) :
    Sound prim generated setting bare stale (lineTimeout switch job ref) := by
  unfold lineTimeout
  dsimp only
  split
  · exact sound
  · refine sound_pending (sound_identity sound ref _ rfl (Or.inl rfl)) ?_
    intro held member
    exact sound.pending held (List.mem_of_mem_eraseP member)

theorem sound_closeLine (sound : Sound prim generated setting bare none switch) (line : LineRef) :
    Sound prim generated setting bare none (closeLine switch line) := by
  have uncached : Sound prim generated setting bare none
      { switch with cachedOpen := Function.update switch.cachedOpen line none } := by
    refine { sound with cached := ?_ }
    intro ref opened held
    by_cases same : ref = line
    · subst same
      simp at held
    · simp only [Function.update_of_ne same] at held
      exact sound.cached ref opened held
  have forgotten := sound_forgetLine (sound_stale uncached line)
  unfold closeLine
  dsimp only
  split
  · exact sound_identity forgotten _ _ rfl (Or.inl rfl)
  · exact forgotten

end Telehash.LineEnd
