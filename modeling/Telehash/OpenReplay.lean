import Telehash.OpenAuthentication

/-!
The opens of one identity over time, replayed ones included: what the checks of
`processOpen:` against the current line keep out. The events between the opens
are all those that touch identities and lines.
-/

namespace Telehash.OpenReplay
open Association Foundation Packet Identity CipherSet OpenAuthentication Runs

variable (prim : Primitives)

/-- An open that was given a line: its bytes, and what the line took from it. -/
structure Acceptance where
  body : Data
  time : Nat
  lineId : Option Json

/-- The store, and the opens of one identity given a line so far, the latest first. -/
structure Replay where
  store : Store
  accepted : List Acceptance

def acceptanceOf (hashname : String) (store : Store) : StoreEvent → Option Acceptance
  | .processOpen own lineKeys openPacket =>
      match processOpen prim own lineKeys openPacket store with
      | .ok (after, some line) =>
          let given := after.lines line
          if (after.identities given.toIdentity).hashname prim.sha256 = hashname then
            some ⟨openPacket.body.getD [], given.createdAt, given.outLineId⟩
          else none
      | _ => none
  | _ => none

def replayStep (hashname : String) (replay : Replay) (event : StoreEvent) : Replay where
  store := storeStep prim replay.store event
  accepted := (acceptanceOf prim hashname replay.store event).toList ++ replay.accepted

/-- The current line of the identity cached under a hashname. -/
def currentOf (hashname : String) (store : Store) : Option THLine :=
  (store.identityCache.lookup hashname).bind (currentLineOf store)

def createdAtOf (hashname : String) (store : Store) : Nat :=
  ((currentOf hashname store).map THLine.createdAt).getD 0

/-- The switch picks its cipher set by the first byte of an open, and the line
of the identity is not closed. -/
def Uninterrupted (cipherParts : CipherParts) (hashname : String) (replay : Replay) :
    StoreEvent → Prop
  | .processOpen own _ openPacket =>
      cipherParts.lookup (hexString ((openPacket.body.getD []).take 1)) = some own
  | .closeLine ref => replay.store.identityCache.lookup hashname ≠ some ref
  | .reset ref => replay.store.identityCache.lookup hashname ≠ some ref
  | _ => True

/-- An open accepted before comes again in the same second as the open accepted
last, which named another line id, or without any line id. -/
def Overtaken (replay : Replay) : StoreEvent → Prop
  | .processOpen _ _ openPacket =>
      ∃ last earlier again, replay.accepted = last :: earlier ∧ again ∈ replay.accepted ∧
        again.body = openPacket.body.getD [] ∧ again.time = last.time ∧
        isEqualToString last.lineId again.lineId = .ok false
  | _ => False

/-! ## The bytes of an open -/

theorem bind_map {α β γ : Type} (computed : Except Fault α) {next : α → Except Fault β}
    {other : α → Except Fault γ} {change : γ → β}
    (same : ∀ value, next value = (other value).map change) :
    (computed >>= next) = (computed >>= other).map change := by
  cases computed with
  | error fault => rfl
  | ok value => exact same value

/-- The same open read off a packet that came on another path. -/
def onPath (returnPath : Option THPath) (opened : Opened) : Opened :=
  { opened with inner := { opened.inner with returnPath := returnPath } }

section SameBytes
variable {one two : THPacket} (same : one.body.getD [] = two.body.getD [])
include same

theorem readInner3a_sameBytes (secretKey pubLineKey : Data) (inner : THPacket) :
    readInner3a prim secretKey pubLineKey two { inner with returnPath := two.returnPath } =
      (readInner3a prim secretKey pubLineKey one
        { inner with returnPath := one.returnPath }).map (onPath two.returnPath) := by
  simp only [readInner3a, sameFingerprint, same]
  split
  · rfl
  · split <;> rfl

theorem verify2a_sameBytes (remoteECCKey sigData publicKey : Data) (inner : THPacket) :
    verify2a prim remoteECCKey sigData two { inner with returnPath := two.returnPath } publicKey =
      verify2a prim remoteECCKey sigData one { inner with returnPath := one.returnPath }
        publicKey := by
  simp only [verify2a, same]
  rfl

theorem readInner2a_sameBytes (remoteECCKey sigData : Data) (inner : THPacket) :
    readInner2a prim remoteECCKey sigData two { inner with returnPath := two.returnPath } =
      (readInner2a prim remoteECCKey sigData one
        { inner with returnPath := one.returnPath }).map (Option.map (onPath two.returnPath)) := by
  have verified := verify2a_sameBytes prim same remoteECCKey sigData
  simp only [readInner2a, verified]
  cases prim.rsaLoad (inner.body.getD []) with
  | none => rfl
  | some publicKey =>
      have checked : ∀ path, sameFingerprint prim ⟨.cs2a, publicKey, none⟩
          { inner with returnPath := path } = sameFingerprint prim ⟨.cs2a, publicKey, none⟩ inner :=
        fun path => rfl
      simp only [checked]
      cases sameFingerprint prim ⟨.cs2a, publicKey, none⟩ inner with
      | true => rfl
      | false => rfl

theorem open3a_sameBytes (secretKey : Data) :
    open3a prim secretKey two =
      (open3a prim secretKey one).map (Option.map (onPath two.returnPath)) := by
  unfold open3a
  simp only [← same]
  refine bind_map _ fun pubLineKey => bind_map _ fun length => bind_map _ fun encrypted =>
    bind_map _ fun _ => ?_
  cases prim.secretboxOpen (prim.beforenm pubLineKey secretKey) encrypted with
  | none => rfl
  | some message =>
      refine bind_map _ fun read => ?_
      cases read with
      | none => rfl
      | some inner =>
          exact congrArg Except.ok (readInner3a_sameBytes prim same secretKey pubLineKey inner)

theorem open2a_sameBytes (secretKey : Data) :
    open2a prim secretKey two =
      (open2a prim secretKey one).map (Option.map (onPath two.returnPath)) := by
  unfold open2a
  simp only [← same]
  refine bind_map _ fun lineKey => ?_
  cases prim.rsaDecrypt secretKey lineKey with
  | none => rfl
  | some remoteECCKey =>
      refine bind_map _ fun sigData => bind_map _ fun behindSig => bind_map _ fun innerLength =>
        bind_map _ fun encryptedInner => bind_map _ fun macStart => bind_map _ fun mac => ?_
      cases prim.gcmDecrypt (prim.sha256 remoteECCKey) encryptedInner mac with
      | none => rfl
      | some plainText =>
          refine bind_map _ fun read => ?_
          cases read with
          | none => rfl
          | some inner => exact readInner2a_sameBytes prim same remoteECCKey sigData inner

/-- What an open says depends on its bytes alone. -/
theorem openWith_sameBytes (own : THCipherSet) :
    openWith prim own two =
      (openWith prim own one).map (Option.map (onPath two.returnPath)) := by
  unfold openWith
  cases own.csid with
  | cs2a => exact open2a_sameBytes prim same _
  | cs3a => exact open3a_sameBytes prim same _

end SameBytes
/-! ## What leaves the current line alone -/

/-- The current line stays, with the time and the id it was opened with. -/
def Stays (hashname : String) (before after : Store) : Prop :=
  ∀ line, currentOf hashname before = some line → ∃ kept, currentOf hashname after = some kept ∧
    kept.createdAt = line.createdAt ∧ kept.outLineId = line.outLineId

section Frame
variable {store : Store} (hashname : String)

theorem stays_same {after : Store} (same : currentOf hashname after = currentOf hashname store) :
    Stays hashname store after := by
  intro line current
  exact ⟨line, same.trans current, rfl, rfl⟩

variable (store) in
theorem currentOf_updateIdentity (ref : IdentityRef) (change : THIdentity → THIdentity)
    (kept : store.identityCache.lookup hashname = some ref →
      (change (store.identities ref)).currentLine = (store.identities ref).currentLine) :
    currentOf hashname (store.updateIdentity ref change) = currentOf hashname store := by
  have cache : (store.updateIdentity ref change).identityCache = store.identityCache := rfl
  unfold currentOf
  rw [cache]
  cases found : store.identityCache.lookup hashname with
  | none => rfl
  | some cached =>
      simp only [Option.bind_some, currentLineOf, lines_updateIdentity]
      by_cases same : cached = ref
      · subst same
        rw [identities_updateIdentity_same, kept found]
      · rw [identities_updateIdentity_other store ref cached change same]

theorem currentOf_cacheIdentity (sound : Sound store) {name : String}
    (absent : store.identityCache.lookup name = none) (identity : THIdentity)
    (unlined : identity.currentLine = none) :
    currentOf hashname (store.cacheIdentity name identity) = currentOf hashname store := by
  by_cases same : hashname = name
  · subst same
    simp [currentOf, Store.cacheIdentity, Store.allocIdentity, currentLineOf, absent, unlined]
  · have cache : (store.cacheIdentity name identity).identityCache.lookup hashname =
        store.identityCache.lookup hashname := lookup_insert_other _ _ _ _ same
    unfold currentOf
    rw [cache]
    cases found : store.identityCache.lookup hashname with
    | none => rfl
    | some cached =>
        have older : cached ≠ store.nextIdentity := Nat.ne_of_lt (sound.keyed _ _ found).1
        simp [currentLineOf, Store.cacheIdentity, Store.allocIdentity, older]

theorem currentLineOf_closeChannels_other (store : Store) (sender ref : IdentityRef) :
    currentLineOf (closeChannels sender store) ref = currentLineOf store ref := by
  by_cases same : ref = sender
  · rw [same, currentLineOf_closeChannels]
  · simp [currentLineOf, closeChannels, Store.updateIdentity, same]

end Frame

/-! ## Accepted opens and the current line -/

/-- The line given is the sender's current line and says what the open said;
no other identity's current line is touched. -/
structure Given (sender : IdentityRef) (time : Nat) (lineId : Option Json)
    (before after : Store) (given : LineRef) : Prop where
  cache : after.identityCache = before.identityCache
  current : (after.identities sender).currentLine = some given
  createdAt : (after.lines given).createdAt = time
  outLineId : (after.lines given).outLineId = lineId
  others : ∀ ref, ref ≠ sender → currentLineOf after ref = currentLineOf before ref

theorem takeLine_gives {opened : Opened} {lineKeys : KeyPair} {sender : IdentityRef}
    {lineId : Option Json} {time : Nat} {store after : Store} {given : LineRef}
    (sound : Sound store)
    (taken : takeLine opened lineKeys sender lineId time store = .ok (after, some given)) :
    Given sender time lineId store after given := by
  unfold takeLine at taken
  split at taken
  · rename_i current lined
    obtain ⟨info, _, same⟩ := (bind_ok_iff _ _ _).mp taken
    cases same
    constructor
    · rfl
    · exact lined
    · rw [lines_updateLine_same]; rfl
    · rw [lines_updateLine_same]; rfl
    · intro ref different
      have apart : ∀ line, (store.identities ref).currentLine = some line → line ≠ given := by
        rintro line lineOf rfl
        exact different ((sound.owned ref line lineOf).2.symm.trans
          (sound.owned sender line lined).2)
      unfold currentLineOf
      cases lineOf : (store.identities ref).currentLine with
      | none => simp [Store.updateLine, lineOf]
      | some line => simp [Store.updateLine, lineOf, apart line lineOf]
  · cases taken
    constructor
    · rfl
    · rw [identities_updateIdentity_same]
    · rw [lines_updateIdentity, lines_allocLine_same]; rfl
    · rw [lines_updateIdentity, lines_allocLine_same]; rfl
    · intro ref different
      unfold currentLineOf
      rw [identities_updateIdentity_other _ sender ref _ different, lines_updateIdentity]
      cases lineOf : (store.identities ref).currentLine with
      | none => simp [Store.allocLine, lineOf]
      | some line =>
          have older : line ≠ store.nextLine := Nat.ne_of_lt (sound.owned ref line lineOf).1
          simp [Store.allocLine, lineOf, older]

theorem takeOpen_gives {opened : Opened} {lineKeys : KeyPair} {sender : IdentityRef}
    {store after : Store} {given : LineRef} (sound : Sound store)
    (taken : takeOpen opened lineKeys sender store = .ok (after, some given)) :
    ∃ time lineId, opened.authentic = .ok true ∧
      readNumber (opened.inner.objectForKey "at") = .ok time ∧
      opened.inner.objectForKey "line" = lineId ∧
      olderThanCurrent (currentLineOf store sender) time = false ∧
      reopensCurrent (currentLineOf store sender) lineId time = .ok false ∧
      Given sender time lineId store after given := by
  obtain ⟨time, lineId, authentic, timed, named, young, new, gives⟩ :=
    (takeOpen_accepted_iff opened lineKeys sender store after given).mp taken
  refine ⟨time, lineId, authentic, timed, named, young, new, ?_⟩
  split at gives
  · have taken := takeLine_gives (sound_closeChannels sound sender) gives
    exact ⟨taken.cache, taken.current, taken.createdAt, taken.outLineId, fun ref different =>
      (taken.others ref different).trans (currentLineOf_closeChannels_other store sender ref)⟩
  · exact takeLine_gives sound gives

/-- An authentic open of the sender with this time and this line id. -/
structure Speaks (opened : Opened) (sender : String) (time : Nat) (lineId : Option Json) :
    Prop where
  authentic : opened.authentic = .ok true
  from_ : ∃ parts, partsOf (opened.inner.objectForKey "from") = .ok parts ∧
    hashnameForParts prim.sha256 parts = sender
  timed : readNumber (opened.inner.objectForKey "at") = .ok time
  named : opened.inner.objectForKey "line" = lineId

/-- What an accepted open does to the current lines: its sender's says what the
open said and was neither newer nor the same before; the others stay. -/
structure Accepted (openPacket : THPacket) (own : THCipherSet) (before after : Store)
    (given : LineRef) (sender : String) : Prop where
  name : (after.identities (after.lines given).toIdentity).hashname prim.sha256 = sender
  current : currentOf sender after = some (after.lines given)
  others : ∀ hashname, hashname ≠ sender → currentOf hashname after = currentOf hashname before
  checked : ∃ opened, openWith prim own openPacket = .ok (some opened) ∧
    Speaks prim opened sender (after.lines given).createdAt (after.lines given).outLineId
  young : olderThanCurrent (currentOf sender before) (after.lines given).createdAt = false
  new : reopensCurrent (currentOf sender before) (after.lines given).outLineId
    (after.lines given).createdAt = .ok false

/-- The store with the sender looked up by the hash of its parts, and the keys set. -/
structure Looked (name : String) (store looked : Store) (sender : IdentityRef) : Prop where
  sound : Sound looked
  cached : looked.identityCache.lookup name = some sender
  named : (looked.identities sender).hashnameCache = some name
  lines : ∀ hashname, currentOf hashname looked = currentOf hashname store

theorem looked_known {store : Store} (sound : Sound store) {name : String} {sender : IdentityRef}
    (found : store.identityCache.lookup name = some sender) (parts : Option Parts)
    (cipherSet : THCipherSet) :
    Looked name store (store.updateIdentity sender (THIdentity.setKeys parts cipherSet))
      sender := by
  constructor
  · exact sound_updateIdentity sound sender _ rfl (Or.inl rfl)
  · exact found
  · rw [identities_updateIdentity_same]
    exact (sound.keyed _ _ found).2
  · intro hashname
    exact currentOf_updateIdentity _ hashname sender _ fun _ => rfl

theorem looked_new {store : Store} (sound : Sound store) {name : String}
    (absent : store.identityCache.lookup name = none) (parts : Option Parts)
    (cipherSet : THCipherSet) :
    Looked name store (store.cacheIdentity name (THIdentity.init.setKeys parts cipherSet))
      store.nextIdentity := by
  have cached : (store.cacheIdentity name (THIdentity.init.setKeys parts
      cipherSet)).identityCache.lookup name = some store.nextIdentity := lookup_insert_same _ _ _
  constructor
  · exact sound_cacheIdentity sound name _ rfl
  · exact cached
  · simp [Store.cacheIdentity]
  · intro hashname
    exact currentOf_cacheIdentity hashname sound absent _ rfl

theorem acceptOpen_looked {opened : Opened} {parts : Option Parts} {lineKeys : KeyPair}
    {store after : Store} {line : Option LineRef} (sound : Sound store)
    (read : partsOf (opened.inner.objectForKey "from") = .ok parts)
    (accepted : acceptOpen prim opened lineKeys store = .ok (after, line)) :
    (after = store ∧ line = none) ∨
      ∃ looked sender, Looked (hashnameForParts prim.sha256 parts) store looked sender ∧
        takeOpen opened lineKeys sender looked = .ok (after, line) := by
  cases found : store.identityCache.lookup (hashnameForParts prim.sha256 parts) with
  | some sender =>
      rw [acceptOpen_known prim lineKeys read found] at accepted
      exact Or.inr ⟨_, sender, looked_known sound found parts opened.incomingCS, accepted⟩
  | none =>
      by_cases belongs : keyMatches prim.sha256 parts opened.incomingCS
      · rw [acceptOpen_new prim lineKeys read found belongs] at accepted
        exact Or.inr ⟨_, _, looked_new sound found parts opened.incomingCS, accepted⟩
      · rw [acceptOpen_foreign prim lineKeys read found belongs] at accepted
        cases accepted
        exact Or.inl ⟨rfl, rfl⟩

theorem processOpen_accepted {own : THCipherSet} {lineKeys : KeyPair} {openPacket : THPacket}
    {store after : Store} {given : LineRef} (sound : Sound store)
    (processed : processOpen prim own lineKeys openPacket store = .ok (after, some given)) :
    ∃ sender, Accepted prim openPacket own store after given sender := by
  rcases processOpen_ok prim processed with ⟨_, _, absent⟩ | ⟨opened, parts, read, from_, accepted⟩
  · cases absent
  rcases acceptOpen_looked prim sound from_ accepted with
    ⟨_, absent⟩ | ⟨looked, sender, look, taken⟩
  · cases absent
  obtain ⟨time, lineId, authentic, timed, named, young, new, gives⟩ :=
    takeOpen_gives look.sound taken
  obtain ⟨_, owner, names⟩ := takeOpen_given look.sound taken
  have current : currentLineOf looked sender =
      currentOf (hashnameForParts prim.sha256 parts) store := by
    rw [← look.lines, currentOf, look.cached, Option.bind_some]
  rw [current] at young new
  refine ⟨hashnameForParts prim.sha256 parts, ?_⟩
  constructor
  · rw [owner given rfl, THIdentity.hashname, names sender, look.named, Option.getD_some]
  · rw [currentOf, gives.cache, look.cached, Option.bind_some, currentLineOf, gives.current,
      Option.map_some]
  · intro hashname different
    rw [← look.lines hashname, currentOf, currentOf, gives.cache]
    cases found : looked.identityCache.lookup hashname with
    | none => rfl
    | some ref =>
        refine gives.others ref ?_
        rintro rfl
        have known := (look.sound.keyed _ _ found).2
        rw [look.named] at known
        exact different (Option.some.inj known).symm
  · rw [gives.createdAt, gives.outLineId]
    exact ⟨opened, read, authentic, ⟨parts, from_, rfl⟩, timed, named⟩
  · rw [gives.createdAt]
    exact young
  · rw [gives.createdAt, gives.outLineId]
    exact new

theorem processOpen_declined {own : THCipherSet} {lineKeys : KeyPair} {openPacket : THPacket}
    {store after : Store} (sound : Sound store)
    (processed : processOpen prim own lineKeys openPacket store = .ok (after, none))
    (hashname : String) : currentOf hashname after = currentOf hashname store := by
  rcases processOpen_ok prim processed with ⟨_, rfl, _⟩ | ⟨opened, parts, _, from_, accepted⟩
  · rfl
  rcases acceptOpen_looked prim sound from_ accepted with ⟨rfl, _⟩ | ⟨looked, sender, look, taken⟩
  · rfl
  obtain ⟨rfl, _⟩ := (takeOpen_rejected_iff opened lineKeys sender looked after).mp taken
  exact look.lines hashname

/-! ## The events between the opens -/

section Between
variable {store : Store} (hashname : String)

theorem currentOf_some_iff {line : THLine} :
    currentOf hashname store = some line ↔ ∃ cached ref,
      store.identityCache.lookup hashname = some cached ∧
        (store.identities cached).currentLine = some ref ∧ store.lines ref = line := by
  rw [currentOf, Option.bind_eq_some_iff]
  constructor
  · rintro ⟨cached, found, current⟩
    obtain ⟨ref, lineOf, same⟩ := Option.map_eq_some_iff.mp current
    exact ⟨cached, ref, found, lineOf, same⟩
  · rintro ⟨cached, ref, found, lineOf, same⟩
    exact ⟨cached, found, Option.map_eq_some_iff.mpr ⟨ref, lineOf, same⟩⟩

theorem stays_newLine (sound : Sound store) (ref : IdentityRef)
    (unlined : (store.identities ref).currentLine = none) :
    Stays hashname store ((store.allocLine (.new ref)).updateIdentity ref fun identity =>
      { identity with currentLine := some store.nextLine }) := by
  intro line current
  obtain ⟨cached, lineRef, found, lineOf, rfl⟩ := (currentOf_some_iff hashname).mp current
  have different : cached ≠ ref := by
    rintro rfl
    rw [unlined] at lineOf
    cases lineOf
  have older : lineRef ≠ store.nextLine := Nat.ne_of_lt (sound.owned cached lineRef lineOf).1
  refine ⟨store.lines lineRef, ?_, rfl, rfl⟩
  refine (currentOf_some_iff hashname).mpr ⟨cached, lineRef, found, ?_, ?_⟩
  · rw [identities_updateIdentity_other _ ref cached _ different]
    exact lineOf
  · simp [lines_updateIdentity, Store.allocLine, older]

theorem stays_updateLine (ref : LineRef) (change : THLine → THLine)
    (kept : ∀ line, (change line).createdAt = line.createdAt ∧
      (change line).outLineId = line.outLineId) :
    Stays hashname store (store.updateLine ref change) := by
  intro line current
  obtain ⟨cached, lineRef, found, lineOf, rfl⟩ := (currentOf_some_iff hashname).mp current
  refine ⟨(store.updateLine ref change).lines lineRef, ?_, ?_⟩
  · exact (currentOf_some_iff hashname).mpr ⟨cached, lineRef, found, lineOf, rfl⟩
  · by_cases same : lineRef = ref
    · subst same
      rw [lines_updateLine_same]
      exact kept _
    · simp [Store.updateLine, same]

/-- Nothing but an open changes what the current line was opened with. -/
theorem storeStep_stays (sound : Sound store) (cipherParts : CipherParts)
    (accepted : List Acceptance) (event : StoreEvent)
    (uninterrupted : Uninterrupted cipherParts hashname ⟨store, accepted⟩ event)
    (noOpen : ∀ own lineKeys openPacket, event ≠ .processOpen own lineKeys openPacket) :
    Stays hashname store (storeStep prim store event) := by
  cases event with
  | processOpen own lineKeys openPacket => exact absurd rfl (noOpen own lineKeys openPacket)
  | identityFromParts parts cipherSet =>
      simp only [storeStep]
      cases found : store.identityCache.lookup (hashnameForParts prim.sha256 parts) with
      | some ref =>
          rw [identityFromParts_known prim.sha256 cipherSet found]
          exact stays_same hashname (currentOf_updateIdentity _ hashname ref _ fun _ => rfl)
      | none =>
          by_cases belongs : keyMatches prim.sha256 parts cipherSet
          · rw [identityFromParts_new prim.sha256 found belongs]
            exact stays_same hashname (currentOf_cacheIdentity hashname sound found _ rfl)
          · rw [identityFromParts_foreign prim.sha256 found belongs]
            exact stays_same hashname rfl
  | identityFromHashname name =>
      simp only [storeStep, identityFromHashname]
      split
      · rename_i absent
        exact stays_same hashname (currentOf_cacheIdentity hashname sound absent _ rfl)
      · exact stays_same hashname rfl
  | addCipherSet ref cipherSet =>
      have keys := addCipherSet_kept prim (store.identities ref) cipherSet
      exact stays_same hashname (currentOf_updateIdentity _ hashname ref _ fun _ => keys.2)
  | openLine ref =>
      simp only [storeStep]
      split
      · exact stays_same hashname rfl
      · rename_i unlined
        exact stays_newLine hashname sound ref (by simpa using unlined)
  | generateOpen line info lineId =>
      exact stays_updateLine hashname line _ fun _ => ⟨rfl, rfl⟩
  | closeLine ref =>
      exact stays_same hashname (currentOf_updateIdentity _ hashname ref _
        fun found => absurd found uninterrupted)
  | reset ref =>
      have closed := currentOf_updateIdentity (closeChannels ref store) hashname ref
        (fun identity => { identity with
          availablePaths := []
          cipherParts := .empty
          parts := some .empty
          activePath := none
          vias := []
          relay := none
          currentLine := none }) fun found => absurd found uninterrupted
      have channels := currentOf_updateIdentity store hashname ref
        (fun identity => { identity with channels := .empty }) fun _ => rfl
      exact stays_same hashname (closed.trans channels)

end Between

/-! ## Over a run -/

section Over
variable (cipherParts : CipherParts) (hashname : String)

/-- Bytes that read, under the set they are addressed to, as an open of the
identity with this time and line id. -/
def ReadsAs (acceptance : Acceptance) : Prop :=
  ∃ own packet opened, packet.body.getD [] = acceptance.body ∧
    cipherParts.lookup (hexString (acceptance.body.take 1)) = some own ∧
    openWith prim own packet = .ok (some opened) ∧
    Speaks prim opened hashname acceptance.time acceptance.lineId

/-- The open accepted last spoke for the current line; none was newer, none was
accepted twice. -/
structure Tracks (replay : Replay) : Prop where
  sound : Sound replay.store
  read : ∀ acceptance ∈ replay.accepted, ReadsAs prim cipherParts hashname acceptance
  current : ∀ last earlier, replay.accepted = last :: earlier →
    ∃ line, currentOf hashname replay.store = some line ∧ line.createdAt = last.time ∧
      line.outLineId = last.lineId
  latest : ∀ last earlier, replay.accepted = last :: earlier →
    ∀ acceptance ∈ replay.accepted, acceptance.time ≤ last.time
  once : (replay.accepted.map Acceptance.body).Nodup

variable {prim cipherParts hashname} {replay : Replay}

theorem tracks_stays {after : Store} (tracks : Tracks prim cipherParts hashname replay)
    (sound : Sound after) (stays : Stays hashname replay.store after) :
    Tracks prim cipherParts hashname ⟨after, replay.accepted⟩ := by
  refine ⟨sound, tracks.read, fun last earlier listed => ?_, tracks.latest, tracks.once⟩
  obtain ⟨line, current, timed, named⟩ := tracks.current last earlier listed
  obtain ⟨kept, now, sameTime, sameId⟩ := stays line current
  exact ⟨kept, now, sameTime.trans timed, sameId.trans named⟩

/-- An open with the bytes of an earlier one says the same. -/
theorem readsAs_unique {one two : Acceptance} (first : ReadsAs prim cipherParts hashname one)
    (second : ReadsAs prim cipherParts hashname two) (same : one.body = two.body) :
    one.time = two.time ∧ one.lineId = two.lineId := by
  obtain ⟨own, packet, opened, bytes, chosen, read, speaks⟩ := first
  obtain ⟨own', packet', opened', bytes', chosen', read', speaks'⟩ := second
  rw [same, chosen'] at chosen
  cases chosen
  have reread := openWith_sameBytes prim (bytes.trans (same.trans bytes'.symm)) own
  rw [read, read'] at reread
  cases reread
  have times : Except.ok one.time = (Except.ok two.time : Except Fault Nat) :=
    speaks.timed.symm.trans speaks'.timed
  exact ⟨Except.ok.inj times, speaks.named.symm.trans speaks'.named⟩

/-- The checks let an open pass that is at least as new as the open accepted last. -/
theorem accepted_newest {own : THCipherSet} {openPacket : THPacket} {after : Store}
    {given : LineRef} (tracks : Tracks prim cipherParts hashname replay)
    (accepted : Accepted prim openPacket own replay.store after given hashname)
    {last : Acceptance} {earlier : List Acceptance} (listed : replay.accepted = last :: earlier) :
    last.time ≤ (after.lines given).createdAt := by
  obtain ⟨line, current, lineTime, _⟩ := tracks.current last earlier listed
  have young := accepted.young
  simp only [current, olderThanCurrent, decide_eq_false_iff_not, Nat.not_lt] at young
  rwa [lineTime] at young

/-- Where both are of the same second it differs from the open accepted last. -/
theorem accepted_unrepeated {own : THCipherSet} {lineKeys : KeyPair} {openPacket : THPacket}
    {after : Store} {given : LineRef} (tracks : Tracks prim cipherParts hashname replay)
    (ordered : ¬ Overtaken replay (.processOpen own lineKeys openPacket))
    (accepted : Accepted prim openPacket own replay.store after given hashname)
    (reads : ReadsAs prim cipherParts hashname ⟨openPacket.body.getD [],
      (after.lines given).createdAt, (after.lines given).outLineId⟩) :
    openPacket.body.getD [] ∉ replay.accepted.map Acceptance.body := by
  intro repeated
  obtain ⟨again, member, sameBytes⟩ := List.mem_map.mp repeated
  obtain ⟨sameTime, sameId⟩ := readsAs_unique (tracks.read again member) reads sameBytes
  dsimp only at sameTime sameId
  cases stored : replay.accepted with
  | nil => rw [stored] at member; cases member
  | cons last earlier =>
      obtain ⟨line, current, lineTime, lineId⟩ := tracks.current last earlier stored
      have tied : again.time = last.time :=
        Nat.le_antisymm (tracks.latest last earlier stored again member)
          (sameTime ▸ accepted_newest tracks accepted stored)
      refine ordered ⟨last, earlier, again, stored, member, sameBytes, tied, ?_⟩
      -- the line is not reopened, though the time is its own: the ids differ
      have new := accepted.new
      simp only [current, reopensCurrent, lineTime, lineId] at new
      rw [← sameId, ← sameTime, tied] at new
      obtain ⟨equal, compared, passed⟩ := (bind_ok_iff _ _ _).mp new
      rw [decide_eq_true rfl, Bool.and_true] at passed
      rw [compared, Except.ok.inj passed]

theorem tracks_accepts {own : THCipherSet} {lineKeys : KeyPair} {openPacket : THPacket}
    {after : Store} {given : LineRef} (tracks : Tracks prim cipherParts hashname replay)
    (chosen : cipherParts.lookup (hexString ((openPacket.body.getD []).take 1)) = some own)
    (ordered : ¬ Overtaken replay (.processOpen own lineKeys openPacket)) (sound : Sound after)
    (accepted : Accepted prim openPacket own replay.store after given hashname) :
    Tracks prim cipherParts hashname
      ⟨after, ⟨openPacket.body.getD [], (after.lines given).createdAt,
        (after.lines given).outLineId⟩ :: replay.accepted⟩ := by
  obtain ⟨opened, read, speaks⟩ := accepted.checked
  have reads : ReadsAs prim cipherParts hashname ⟨openPacket.body.getD [],
      (after.lines given).createdAt, (after.lines given).outLineId⟩ :=
    ⟨own, openPacket, opened, rfl, chosen, read, speaks⟩
  constructor
  · exact sound
  · intro acceptance member
    rcases List.mem_cons.mp member with rfl | before
    · exact reads
    · exact tracks.read acceptance before
  · rintro last earlier listed
    cases listed
    exact ⟨after.lines given, accepted.current, rfl, rfl⟩
  · rintro last earlier listed acceptance member
    cases listed
    rcases List.mem_cons.mp member with rfl | before
    · exact Nat.le_refl _
    · cases stored : replay.accepted with
      | nil => rw [stored] at before; cases before
      | cons last earlier =>
          exact Nat.le_trans (tracks.latest last earlier stored acceptance before)
            (accepted_newest tracks accepted stored)
  · rw [List.map_cons, List.nodup_cons]
    exact ⟨accepted_unrepeated tracks ordered accepted reads, tracks.once⟩

theorem tracks_step (event : StoreEvent) (tracks : Tracks prim cipherParts hashname replay)
    (uninterrupted : Uninterrupted cipherParts hashname replay event)
    (ordered : ¬ Overtaken replay event) :
    Tracks prim cipherParts hashname (replayStep prim hashname replay event) := by
  have sound := sound_storeStep prim replay.store event tracks.sound
  by_cases noOpen : ∀ own lineKeys openPacket, event ≠ .processOpen own lineKeys openPacket
  · have none : acceptanceOf prim hashname replay.store event = none := by
      cases event with
      | processOpen own lineKeys openPacket => exact absurd rfl (noOpen own lineKeys openPacket)
      | _ => rfl
    simp only [replayStep, none, Option.toList_none, List.nil_append]
    exact tracks_stays tracks sound (storeStep_stays prim hashname tracks.sound cipherParts
      replay.accepted event uninterrupted noOpen)
  · simp only [not_forall, not_not] at noOpen
    obtain ⟨own, lineKeys, openPacket, rfl⟩ := noOpen
    cases processed : processOpen prim own lineKeys openPacket replay.store with
    | error fault =>
        simp only [replayStep, acceptanceOf, storeStep, processed, Option.toList_none,
          List.nil_append]
        exact tracks
    | ok result =>
        obtain ⟨after, line⟩ := result
        simp only [storeStep, processed] at sound
        cases line with
        | none =>
            simp only [replayStep, acceptanceOf, storeStep, processed, Option.toList_none,
              List.nil_append]
            exact tracks_stays tracks sound (stays_same hashname
              (processOpen_declined prim tracks.sound processed hashname))
        | some given =>
            obtain ⟨sender, accepted⟩ := processOpen_accepted prim tracks.sound processed
            by_cases same : sender = hashname
            · subst same
              simp only [replayStep, acceptanceOf, storeStep, processed, accepted.name, ↓reduceIte,
                Option.toList_some, List.singleton_append]
              exact tracks_accepts tracks uninterrupted ordered sound accepted
            · simp only [replayStep, acceptanceOf, storeStep, processed, accepted.name, same,
                ↓reduceIte, Option.toList_none, List.nil_append]
              exact tracks_stays tracks sound (stays_same hashname
                (accepted.others hashname (Ne.symm same)))

/-- An overtaken open is accepted again, if the line's info can take its key. -/
theorem overtaken_accepted_again {own : THCipherSet} {lineKeys : KeyPair} {openPacket : THPacket}
    (tracks : Tracks prim cipherParts hashname replay)
    (chosen : cipherParts.lookup (hexString ((openPacket.body.getD []).take 1)) = some own)
    (overtaken : Overtaken replay (.processOpen own lineKeys openPacket))
    (usable : ∀ opened line, openWith prim own openPacket = .ok (some opened) →
      currentOf hashname replay.store = some line → ∃ info,
        setRemoteKey opened.incomingCS.csid opened.remoteKey line.cipherSetInfo = .ok info) :
    ∃ after given, processOpen prim own lineKeys openPacket replay.store =
      .ok (after, some given) := by
  obtain ⟨last, earlier, again, listed, member, bytes, tied, differs⟩ := overtaken
  obtain ⟨own', packet, opened, bytes', chosen', read, speaks⟩ := tracks.read again member
  rw [bytes, chosen] at chosen'
  cases chosen'
  have reread := openWith_sameBytes prim (bytes'.trans bytes) own
  rw [read] at reread
  obtain ⟨parts, from_, named⟩ := speaks.from_
  obtain ⟨line, current, lineTime, lineId⟩ := tracks.current last earlier listed
  obtain ⟨ref, found, held⟩ := Option.bind_eq_some_iff.mp current
  have sender : partsOf ((onPath openPacket.returnPath opened).inner.objectForKey "from") =
      .ok parts := from_
  rw [processOpen_opened prim reread lineKeys replay.store,
    acceptOpen_known prim lineKeys sender (by rw [named]; exact found)]
  refine (takeOpen_gives_iff _ lineKeys ref _).mpr ?_
  rw [currentLineOf_setKeys, held]
  refine ⟨speaks.authentic, again.time, speaks.timed, ?_, ?_, ?_⟩
  · simp [olderThanCurrent, lineTime, tied]
  · have lineNamed : (onPath openPacket.returnPath opened).inner.objectForKey "line" =
        again.lineId := speaks.named
    rw [lineNamed, reopensCurrent, lineId, differs, ok_bind, Bool.false_and, pure_eq_ok]
  · rintro _ ⟨⟩
    exact usable _ line reread current

theorem createdAt_stays {before after : Store} (stays : Stays hashname before after) :
    createdAtOf hashname before ≤ createdAtOf hashname after := by
  unfold createdAtOf
  cases current : currentOf hashname before with
  | none => exact Nat.zero_le _
  | some line =>
      obtain ⟨kept, now, sameTime, _⟩ := stays line current
      simp [now, sameTime]

/-- The time of the current line never goes back, whatever opens arrive. -/
theorem createdAt_step (event : StoreEvent) (sound : Sound replay.store)
    (uninterrupted : Uninterrupted cipherParts hashname replay event) :
    createdAtOf hashname replay.store ≤
      createdAtOf hashname (replayStep prim hashname replay event).store := by
  by_cases noOpen : ∀ own lineKeys openPacket, event ≠ .processOpen own lineKeys openPacket
  · exact createdAt_stays (storeStep_stays prim hashname sound cipherParts replay.accepted event
      uninterrupted noOpen)
  · simp only [not_forall, not_not] at noOpen
    obtain ⟨own, lineKeys, openPacket, rfl⟩ := noOpen
    simp only [replayStep, storeStep]
    cases processed : processOpen prim own lineKeys openPacket replay.store with
    | error fault => exact Nat.le_refl _
    | ok result =>
        obtain ⟨after, line⟩ := result
        cases line with
        | none =>
            exact createdAt_stays (stays_same hashname
              (processOpen_declined prim sound processed hashname))
        | some given =>
            obtain ⟨sender, accepted⟩ := processOpen_accepted prim sound processed
            by_cases same : hashname = sender
            · subst same
              have young := accepted.young
              unfold createdAtOf
              rw [accepted.current]
              cases current : currentOf hashname replay.store with
              | none => exact Nat.zero_le _
              | some line => simpa [current, olderThanCurrent] using young
            · exact createdAt_stays (stays_same hashname (accepted.others hashname same))

end Over

/-- The state before the first of the opens, in any store that can come about. -/
def replayFrom (past : List StoreEvent) : Replay := ⟨run (storeStep prim) .start past, []⟩

theorem tracks_from (cipherParts : CipherParts) (hashname : String) (past : List StoreEvent) :
    Tracks prim cipherParts hashname (replayFrom prim past) := by
  constructor
  · exact sound_run prim past
  · exact List.forall_mem_nil _
  · rintro last earlier ⟨⟩
  · rintro last earlier ⟨⟩
  · exact List.nodup_nil

theorem createdAt_run {hashname : String} {cipherParts : CipherParts} (start : Replay)
    (events : List StoreEvent) (sound : Sound start.store)
    (uninterrupted : Along (replayStep prim hashname) (Uninterrupted cipherParts hashname) start
      events) :
    createdAtOf hashname start.store ≤
      createdAtOf hashname (run (replayStep prim hashname) start events).store := by
  have preserved : ∀ replay event, Uninterrupted cipherParts hashname replay event →
      Sound replay.store ∧ createdAtOf hashname start.store ≤ createdAtOf hashname replay.store →
      Sound (replayStep prim hashname replay event).store ∧ createdAtOf hashname start.store ≤
        createdAtOf hashname (replayStep prim hashname replay event).store := by
    rintro replay event condition ⟨soundNow, before⟩
    exact ⟨sound_storeStep prim replay.store event soundNow,
      Nat.le_trans before (createdAt_step event soundNow condition)⟩
  exact (run_invariant preserved start events ⟨sound, Nat.le_refl _⟩ uninterrupted).2

/-- As long as no accepted open comes again in the second of another one
accepted since, no open of the identity is accepted twice. The time of the
current line goes forward in any case. -/
theorem replays_kept_out (cipherParts : CipherParts) (hashname : String)
    (past events : List StoreEvent)
    (uninterrupted : Along (replayStep prim hashname) (Uninterrupted cipherParts hashname)
      (replayFrom prim past) events)
    (ordered : Along (replayStep prim hashname) (fun replay event => ¬ Overtaken replay event)
      (replayFrom prim past) events) :
    Throughout (replayStep prim hashname)
        (fun replay => (replay.accepted.map Acceptance.body).Nodup) (replayFrom prim past) events ∧
      ∀ earlier later, events = earlier ++ later →
        createdAtOf hashname
            (run (replayStep prim hashname) (replayFrom prim past) earlier).store ≤
          createdAtOf hashname
            (run (replayStep prim hashname) (replayFrom prim past) events).store := by
  constructor
  · have preserved : ∀ replay event, Uninterrupted cipherParts hashname replay event ∧
        ¬ Overtaken replay event → Tracks prim cipherParts hashname replay →
        Tracks prim cipherParts hashname (replayStep prim hashname replay event) :=
      fun replay event condition tracks => tracks_step event tracks condition.1 condition.2
    have tracked := throughout_invariant preserved _ events
      (tracks_from prim cipherParts hashname past)
      ((along_and _ events).mpr ⟨uninterrupted, ordered⟩)
    exact throughout_mono (fun replay tracks => tracks.once) _ events tracked
  · rintro earlier later rfl
    rw [along_append] at uninterrupted
    rw [run_append]
    have sound := sound_run prim past
    refine createdAt_run prim _ later ?_ uninterrupted.2
    have preserved : ∀ replay event, True → Sound replay.store →
        Sound (replayStep prim hashname replay event).store :=
      fun replay event _ soundNow => sound_storeStep prim replay.store event soundNow
    exact run_invariant preserved (replayFrom prim past) earlier sound (along_true _ earlier)

/-! Two opens of the victim in one second, naming the line ids aa and bb. -/

def secondText (digit : UInt8) : Data :=
  utf8 "\x7b\"at\":1,\"from\":\x7b\"3a\":\"" ++ utf8 (hexString victimKey) ++
    utf8 "\"\x7d,\"line\":\"" ++ [digit, digit] ++ utf8 "\"\x7d"

def secondJson (lineId : String) : JsonDictionary :=
  ((Dictionary.single "at" (.number 1)).insert "from"
    (.object [("3a", .string (hexString victimKey))])).insert "line" (.string lineId)

def secondPrimitives : Primitives :=
  { joiningPrimitives with
    serialization :=
      { dataWithJSONObject := fun _ => secondText 97
        JSONObjectWithData := fun text =>
          if text = secondText 97 then some (.dictionary (secondJson "aa"))
          else if text = secondText 98 then some (.dictionary (secondJson "bb"))
          else none } }

def secondOpen (digit : UInt8) : THPacket where
  json := none
  body := some ([0x3a] ++ victimKey.take macBytes ++ senderLineKey ++ senderLineKey.take macBytes ++
    header (secondText digit).length ++ secondText digit ++ victimKey)
  jsonLength := 1
  returnPath := none

def secondEvent (digit : UInt8) : StoreEvent := .processOpen receiver lineKeys (secondOpen digit)

def victimName : String := hashnameForParts id (some victimParts)

def secondAcceptance (digit : UInt8) (lineId : String) : Acceptance :=
  ⟨(secondOpen digit).body.getD [], 1, some (.string lineId)⟩

def crossedOpens : List StoreEvent := [secondEvent 97, secondEvent 98, secondEvent 97]

set_option maxRecDepth 10000 in
theorem crossed_opens_accepted :
    (run (replayStep secondPrimitives victimName) (replayFrom secondPrimitives [])
        crossedOpens).accepted =
      [secondAcceptance 97 "aa", secondAcceptance 98 "bb", secondAcceptance 97 "aa"] := rfl

/-- The first open comes again after the second one and is accepted again. -/
theorem crossed_open_accepted_twice :
    Along (replayStep secondPrimitives victimName)
        (Uninterrupted (.single "3a" receiver) victimName) (replayFrom secondPrimitives [])
        crossedOpens ∧
      ¬ ((run (replayStep secondPrimitives victimName) (replayFrom secondPrimitives [])
        crossedOpens).accepted.map Acceptance.body).Nodup := by
  constructor
  · refine ⟨?_, ?_, ?_, trivial⟩
    all_goals rfl
  · rw [crossed_opens_accepted]
    simp [secondAcceptance]

/-- A replay next to the original, then another open of the same second. -/
def straightOpens : List StoreEvent := [secondEvent 97, secondEvent 97, secondEvent 98]

set_option maxRecDepth 10000 in
theorem straight_opens_ordered :
    Along (replayStep secondPrimitives victimName)
      (fun replay event => ¬ Overtaken replay event) (replayFrom secondPrimitives [])
      straightOpens := by
  refine ⟨?_, ?_, ?_, trivial⟩
  · rintro ⟨last, earlier, again, listed, _⟩
    cases listed
  · rintro ⟨last, earlier, again, listed, member, _, _, differs⟩
    change [secondAcceptance 97 "aa"] = last :: earlier at listed
    change again ∈ [secondAcceptance 97 "aa"] at member
    rw [List.mem_singleton] at member
    cases listed
    subst member
    simp [secondAcceptance, isEqualToString, readText] at differs
  · rintro ⟨last, earlier, again, _, member, bytes, _⟩
    change again ∈ [secondAcceptance 97 "aa"] at member
    rw [List.mem_singleton] at member
    subst member
    exact absurd bytes (by decide)

theorem straight_opens_once :
    Throughout (replayStep secondPrimitives victimName)
        (fun replay => (replay.accepted.map Acceptance.body).Nodup)
        (replayFrom secondPrimitives []) straightOpens ∧
      ∀ earlier later, straightOpens = earlier ++ later →
        createdAtOf victimName (run (replayStep secondPrimitives victimName)
            (replayFrom secondPrimitives []) earlier).store ≤
          createdAtOf victimName (run (replayStep secondPrimitives victimName)
            (replayFrom secondPrimitives []) straightOpens).store := by
  refine replays_kept_out secondPrimitives (.single "3a" receiver) victimName [] straightOpens ?_
    straight_opens_ordered
  refine ⟨?_, ?_, ?_, trivial⟩
  all_goals rfl

end Telehash.OpenReplay
