import Telehash.CipherSet
import Telehash.Runs

/-!
Who an accepted open speaks for, and what a rejected one leaves behind. Both
results are exact: they name the packets and identity stores for which
`processOpen:` of either cipher set does more than it should.
-/

namespace Telehash.OpenAuthentication
open Association Foundation Packet Identity CipherSet Runs

variable (prim : Primitives)

section Cases
variable {opened : Opened} {parts : Option Parts} (lineKeys : KeyPair) {store : Store}
  (read : partsOf (opened.inner.objectForKey "from") = .ok parts)
include read

theorem acceptOpen_known {ref : IdentityRef}
    (found : store.identityCache.lookup (hashnameForParts prim.sha256 parts) = some ref) :
    acceptOpen prim opened lineKeys store = takeOpen opened lineKeys ref
      (store.updateIdentity ref (THIdentity.setKeys parts opened.incomingCS)) := by
  have given := identityFromParts_known prim.sha256 opened.incomingCS found
  unfold acceptOpen
  simp only [read, ok_bind, given]
  rw [addCipherSet_again prim store parts opened.incomingCS ref _ given]

theorem acceptOpen_new
    (absent : store.identityCache.lookup (hashnameForParts prim.sha256 parts) = none)
    (belongs : keyMatches prim.sha256 parts opened.incomingCS) :
    acceptOpen prim opened lineKeys store = takeOpen opened lineKeys store.nextIdentity
      (store.cacheIdentity (hashnameForParts prim.sha256 parts)
        (THIdentity.init.setKeys parts opened.incomingCS)) := by
  have given := identityFromParts_new prim.sha256 absent belongs
  unfold acceptOpen
  simp only [read, ok_bind, given]
  rw [addCipherSet_again prim store parts opened.incomingCS store.nextIdentity _ given]

theorem acceptOpen_foreign
    (absent : store.identityCache.lookup (hashnameForParts prim.sha256 parts) = none)
    (foreign : ¬ keyMatches prim.sha256 parts opened.incomingCS) :
    acceptOpen prim opened lineKeys store = .ok (store, none) := by
  unfold acceptOpen
  simp only [read, ok_bind, identityFromParts_foreign prim.sha256 absent foreign, pure_eq_ok]

end Cases

/-- An accepted or rejected open was read, and so were its parts. -/
theorem processOpen_ok {own : THCipherSet} {lineKeys : KeyPair} {openPacket : THPacket}
    {store after : Store} {line : Option LineRef}
    (processed : processOpen prim own lineKeys openPacket store = .ok (after, line)) :
    (openWith prim own openPacket = .ok none ∧ after = store ∧ line = none) ∨
      ∃ opened parts, openWith prim own openPacket = .ok (some opened) ∧
        partsOf (opened.inner.objectForKey "from") = .ok parts ∧
        acceptOpen prim opened lineKeys store = .ok (after, line) := by
  unfold processOpen at processed
  obtain ⟨result, read, processed⟩ := (bind_ok_iff _ _ _).mp processed
  cases result with
  | none =>
      cases processed
      exact Or.inl ⟨read, rfl, rfl⟩
  | some opened =>
      obtain ⟨parts, readParts, _⟩ := (bind_ok_iff _ _ _).mp processed
      exact Or.inr ⟨opened, parts, read, readParts, processed⟩

theorem processOpen_opened {own : THCipherSet} {openPacket : THPacket} {opened : Opened}
    (read : openWith prim own openPacket = .ok (some opened)) (lineKeys : KeyPair)
    (store : Store) :
    processOpen prim own lineKeys openPacket store = acceptOpen prim opened lineKeys store := by
  simp [processOpen, read]

theorem currentLineOf_setKeys (store : Store) (ref : IdentityRef) (parts : Option Parts)
    (cipherSet : THCipherSet) :
    currentLineOf (store.updateIdentity ref (THIdentity.setKeys parts cipherSet)) ref =
      currentLineOf store ref := by
  simp [currentLineOf, THIdentity.setKeys]

theorem currentLineOf_cacheIdentity (store : Store) (hashname : String) (parts : Option Parts)
    (cipherSet : THCipherSet) :
    currentLineOf (store.cacheIdentity hashname (THIdentity.init.setKeys parts cipherSet))
      store.nextIdentity = none := by
  simp [currentLineOf, Store.cacheIdentity, Store.allocIdentity, THIdentity.setKeys,
    THIdentity.init]

/-! ## Two senders of 3a opens

A platform on which the key derivations only join their inputs. The victim and
the attacker hold keys of their own; both name the victim's parts. -/

def victimKey : Data := List.replicate publicKeyBytes 1

def attackerKey : Data := List.replicate publicKeyBytes 2

def victimParts : Parts := .single "3a" (hexString victimKey)

def receiver : THCipherSet := ⟨.cs3a, List.replicate publicKeyBytes 9, some []⟩

def openText (digit : UInt8) : Data :=
  utf8 "\x7b\"at\":" ++ [digit] ++ utf8 ",\"from\":\x7b\"3a\":\"" ++ utf8 (hexString victimKey) ++
    utf8 "\"\x7d,\"line\":\"aa\"\x7d"

def openJson (time : Int) : JsonDictionary :=
  ((Dictionary.single "at" (.number time)).insert "from"
    (.object [("3a", .string (hexString victimKey))])).insert "line" (.string "aa")

def joiningPrimitives : Primitives where
  serialization :=
    { dataWithJSONObject := fun _ => openText 49
      JSONObjectWithData := fun text =>
        if text = openText 49 then some (.dictionary (openJson 1))
        else if text = openText 53 then some (.dictionary (openJson 5))
        else none }
  stack := ⟨0, 0⟩
  beyond := []
  sha256 := id
  beforenm publicKey secretKey := publicKey ++ secretKey
  secretboxOpen key cipherText :=
    if cipherText.take macBytes = key.take macBytes then some (cipherText.drop macBytes) else none
  onetimeauthVerify mac _ key := mac = key.take macBytes
  rsaLoad _ := none
  rsaDecrypt _ _ := none
  rsaVerify _ _ _ := false
  gcmDecrypt _ _ _ := none
  ecdhAgree _ _ := none

def senderLineKey : Data := List.replicate publicKeyBytes 7

def openFrom (key : Data) (digit : UInt8) : THPacket where
  json := none
  body := some ([0x3a] ++ key.take macBytes ++ senderLineKey ++ senderLineKey.take macBytes ++
    header (openText digit).length ++ openText digit ++ key)
  jsonLength := 1
  returnPath := none

def openedFrom (key : Data) (digit : UInt8) (time : Int) : Opened where
  inner := ⟨some (openJson time), some key, (openText digit).length, none⟩
  incomingCS := ⟨.cs3a, key, none⟩
  remoteKey := senderLineKey
  authentic := .ok true

/-! ## Accepted opens -/

/-- The cache names its identities rightly, and a current line belongs to the
identity that has it. -/
structure Sound (store : Store) : Prop where
  keyed : Keyed store
  owned : ∀ ref line, (store.identities ref).currentLine = some line →
    line < store.nextLine ∧ (store.lines line).toIdentity = ref

theorem sound_start : Sound .start := ⟨keyed_start, fun _ _ current => by cases current⟩

theorem sound_updateIdentity {store : Store} (sound : Sound store) (ref : IdentityRef)
    (change : THIdentity → THIdentity)
    (named : (change (store.identities ref)).hashnameCache = (store.identities ref).hashnameCache)
    (lined : (change (store.identities ref)).currentLine = (store.identities ref).currentLine ∨
      (change (store.identities ref)).currentLine = none) :
    Sound (store.updateIdentity ref change) := by
  refine ⟨keyed_updateIdentity sound.keyed ref change named, fun other line current => ?_⟩
  by_cases same : other = ref
  · subst same
    rw [identities_updateIdentity_same] at current
    rcases lined with kept | dropped
    · exact sound.owned other line (kept.symm.trans current)
    · rw [dropped] at current
      cases current
  · rw [identities_updateIdentity_other store ref other change same] at current
    exact sound.owned other line current

theorem sound_cacheIdentity {store : Store} (sound : Sound store) (hashname : String)
    (identity : THIdentity) (unlined : identity.currentLine = none) :
    Sound (store.cacheIdentity hashname identity) := by
  refine ⟨keyed_cacheIdentity sound.keyed hashname identity, fun ref line current => ?_⟩
  by_cases same : ref = store.nextIdentity
  · subst same
    simp [Store.cacheIdentity, Store.allocIdentity, unlined] at current
  · refine sound.owned ref line ?_
    simpa [Store.cacheIdentity, Store.allocIdentity, same] using current

theorem sound_updateLine {store : Store} (sound : Sound store) (ref : LineRef)
    (change : THLine → THLine)
    (kept : (change (store.lines ref)).toIdentity = (store.lines ref).toIdentity) :
    Sound (store.updateLine ref change) := by
  refine ⟨sound.keyed, fun owner line current => ?_⟩
  obtain ⟨allocated, owned⟩ := sound.owned owner line current
  refine ⟨allocated, ?_⟩
  exact forall_updateLine store
    (fun line held => (store.lines line).toIdentity = owner → held.toIdentity = owner)
    (fun before => kept.trans before) (fun _ _ before => before) line owned

/-- A new line becomes the current one of the identity it is for. -/
theorem sound_newLine {store : Store} (sound : Sound store) (sender : IdentityRef)
    (line : THLine) (owner : line.toIdentity = sender) :
    Sound ((store.allocLine line).updateIdentity sender fun identity =>
      { identity with currentLine := some store.nextLine }) := by
  have keyed : Keyed (store.allocLine line) := sound.keyed
  refine ⟨keyed_updateIdentity keyed sender _ rfl, fun ref other current => ?_⟩
  have older : ∀ ref other, (store.identities ref).currentLine = some other →
      other < store.nextLine + 1 ∧ ((store.allocLine line).lines other).toIdentity = ref := by
    intro ref other current
    obtain ⟨allocated, owned⟩ := sound.owned ref other current
    have different : other ≠ store.nextLine := Nat.ne_of_lt allocated
    exact ⟨Nat.lt_succ_of_lt allocated, by simpa [Store.allocLine, different] using owned⟩
  by_cases same : ref = sender
  · subst same
    rw [identities_updateIdentity_same] at current
    cases current
    exact ⟨Nat.lt_succ_self _, by simpa using owner⟩
  · rw [identities_updateIdentity_other _ sender ref _ same] at current
    exact older ref other current

theorem sound_closeChannels {store : Store} (sound : Sound store) (ref : IdentityRef) :
    Sound (closeChannels ref store) := by
  have closed := sound_updateIdentity sound ref
    (fun identity => { identity with channels := .empty }) rfl (Or.inl rfl)
  exact ⟨closed.keyed, closed.owned⟩

theorem sound_reset {store : Store} (sound : Sound store) (ref : IdentityRef) :
    Sound (reset ref store) :=
  sound_updateIdentity (sound_closeChannels sound ref) ref _ rfl (Or.inr rfl)

theorem sound_identityFromParts {store : Store} (sound : Sound store) (parts : Option Parts)
    (cipherSet : THCipherSet) :
    Sound (identityFromParts prim.sha256 parts cipherSet store).1 := by
  cases found : store.identityCache.lookup (hashnameForParts prim.sha256 parts) with
  | some ref =>
      rw [identityFromParts_known prim.sha256 cipherSet found]
      exact sound_updateIdentity sound ref _ rfl (Or.inl rfl)
  | none =>
      by_cases belongs : keyMatches prim.sha256 parts cipherSet
      · rw [identityFromParts_new prim.sha256 found belongs]
        exact sound_cacheIdentity sound _ _ rfl
      · rw [identityFromParts_foreign prim.sha256 found belongs]
        exact sound

theorem sound_identityFromHashname {store : Store} (sound : Sound store) (hashname : String) :
    Sound (identityFromHashname hashname store).1 := by
  unfold identityFromHashname
  split
  · exact sound_cacheIdentity sound hashname .init rfl
  · exact sound

theorem addCipherSet_kept (identity : THIdentity) (cipherSet : THCipherSet) :
    (identity.addCipherSet prim.sha256 cipherSet).hashnameCache = identity.hashnameCache ∧
      (identity.addCipherSet prim.sha256 cipherSet).currentLine = identity.currentLine := by
  unfold THIdentity.addCipherSet
  split <;> exact ⟨rfl, rfl⟩

/-- What accepting an open does to the store: invariants stay, the line given
is the sender's, and no identity changes its name. -/
theorem takeLine_given {opened : Opened} {lineKeys : KeyPair} {sender : IdentityRef}
    {lineId : Option Json} {time : Nat} {store after : Store} {line : Option LineRef}
    (sound : Sound store)
    (taken : takeLine opened lineKeys sender lineId time store = .ok (after, line)) :
    Sound after ∧ (∀ given, line = some given → (after.lines given).toIdentity = sender) ∧
      ∀ ref, (after.identities ref).hashnameCache = (store.identities ref).hashnameCache := by
  unfold takeLine at taken
  split at taken
  · rename_i current lined
    obtain ⟨info, _, same⟩ := (bind_ok_iff _ _ _).mp taken
    cases same
    refine ⟨sound_updateLine sound current _ rfl, ?_, fun ref => rfl⟩
    intro given same
    cases same
    rw [lines_updateLine_same]
    exact (sound.owned sender current lined).2
  · cases taken
    refine ⟨sound_newLine sound sender _ rfl, ?_, fun ref => ?_⟩
    · intro given same
      cases same
      simp [handleOpen, THLine.new]
    · by_cases same : ref = sender
      · subst same
        rw [identities_updateIdentity_same]
        rfl
      · rw [identities_updateIdentity_other _ sender ref _ same]
        rfl

theorem takeOpen_given {opened : Opened} {lineKeys : KeyPair} {sender : IdentityRef}
    {store after : Store} {line : Option LineRef} (sound : Sound store)
    (taken : takeOpen opened lineKeys sender store = .ok (after, line)) :
    Sound after ∧ (∀ given, line = some given → (after.lines given).toIdentity = sender) ∧
      ∀ ref, (after.identities ref).hashnameCache = (store.identities ref).hashnameCache := by
  cases line with
  | none =>
      obtain ⟨rfl, _⟩ := (takeOpen_rejected_iff opened lineKeys sender store after).mp taken
      exact ⟨sound, fun _ absent => (nomatch absent), fun _ => rfl⟩
  | some given =>
      obtain ⟨time, lineId, _, _, _, _, _, taken⟩ :=
        (takeOpen_accepted_iff opened lineKeys sender store after given).mp taken
      split at taken
      · obtain ⟨kept, owner, names⟩ := takeLine_given (sound_closeChannels sound sender) taken
        refine ⟨kept, owner, fun ref => ?_⟩
        rw [names ref]
        by_cases same : ref = sender
        · subst same
          simp [closeChannels, Store.updateIdentity]
        · simp [closeChannels, Store.updateIdentity, same]
      · exact takeLine_given sound taken

theorem sound_processOpen {own : THCipherSet} {lineKeys : KeyPair} {openPacket : THPacket}
    {store after : Store} {line : Option LineRef} (sound : Sound store)
    (processed : processOpen prim own lineKeys openPacket store = .ok (after, line)) :
    Sound after := by
  rcases processOpen_ok prim processed with ⟨_, rfl, _⟩ | ⟨opened, parts, _, readParts, accepted⟩
  · exact sound
  · have looked := sound_identityFromParts prim sound parts opened.incomingCS
    unfold acceptOpen at accepted
    simp only [readParts, ok_bind] at accepted
    split at accepted
    · rename_i given
      cases accepted
      rwa [given] at looked
    · rename_i reached sender given
      rw [given] at looked
      have keys := addCipherSet_kept prim (reached.identities sender) opened.incomingCS
      exact (takeOpen_given (sound_updateIdentity looked sender _ keys.1 (Or.inl keys.2))
        accepted).1

/-- Everything that touches the identity cache and its identities: opens,
connect requests, hashnames met in a see or a seek, and what the switch does to
lines of its own accord. -/
inductive StoreEvent where
  | processOpen (own : THCipherSet) (lineKeys : KeyPair) (openPacket : THPacket)
  | identityFromParts (parts : Option Parts) (cipherSet : THCipherSet)
  | identityFromHashname (hashname : String)
  | addCipherSet (ref : IdentityRef) (cipherSet : THCipherSet)
  | openLine (ref : IdentityRef)
  | generateOpen (line : LineRef) (info : THCipherSetLineInfo) (lineId : String)
  | closeLine (ref : IdentityRef)
  | reset (ref : IdentityRef)

-- A raise ends the program; the store stays as it was.
def storeStep (store : Store) : StoreEvent → Store
  | .processOpen own lineKeys openPacket =>
      match processOpen prim own lineKeys openPacket store with
      | .ok (after, _) => after
      | .error _ => store
  | .identityFromParts parts cipherSet =>
      (identityFromParts prim.sha256 parts cipherSet store).1
  | .identityFromHashname hashname => (identityFromHashname hashname store).1
  | .addCipherSet ref cipherSet =>
      store.updateIdentity ref fun identity => identity.addCipherSet prim.sha256 cipherSet
  | .openLine ref =>
      if (store.identities ref).currentLine.isSome then store
      else (store.allocLine (.new ref)).updateIdentity ref fun identity =>
        { identity with currentLine := some store.nextLine }
  | .generateOpen line info lineId =>
      store.updateLine line fun held =>
        { held with
          cipherSetInfo := held.cipherSetInfo.or (some info)
          inLineId := held.inLineId.or (some lineId) }
  | .closeLine ref => store.updateIdentity ref fun identity => { identity with currentLine := none }
  | .reset ref => reset ref store

theorem sound_storeStep (store : Store) (event : StoreEvent) (sound : Sound store) :
    Sound (storeStep prim store event) := by
  cases event with
  | processOpen own lineKeys openPacket =>
      simp only [storeStep]
      split
      · rename_i after line processed
        exact sound_processOpen prim sound processed
      · exact sound
  | identityFromParts parts cipherSet => exact sound_identityFromParts prim sound parts cipherSet
  | identityFromHashname hashname => exact sound_identityFromHashname sound hashname
  | addCipherSet ref cipherSet =>
      have keys := addCipherSet_kept prim (store.identities ref) cipherSet
      simp only [storeStep]
      exact sound_updateIdentity sound ref _ keys.1 (Or.inl keys.2)
  | openLine ref =>
      simp only [storeStep]
      split
      · exact sound
      · exact sound_newLine sound ref _ rfl
  | generateOpen line info lineId =>
      simp only [storeStep]
      exact sound_updateLine sound line _ rfl
  | closeLine ref =>
      simp only [storeStep]
      exact sound_updateIdentity sound ref _ rfl (Or.inr rfl)
  | reset ref => exact sound_reset sound ref

theorem sound_run (events : List StoreEvent) :
    Sound (run (storeStep prim) .start events) := by
  have preserved : ∀ store event, True → Sound store → Sound (storeStep prim store event) :=
    fun store event _ => sound_storeStep prim store event
  exact run_invariant preserved _ events sound_start (along_true _ events)

/-- The line given is the line of the identity the inner packet names, and the
inner packet names the key it carries. -/
def SpeaksFor (own : THCipherSet) (openPacket : THPacket) (after : Store) (line : LineRef) : Prop :=
  ∃ opened parts, openWith prim own openPacket = .ok (some opened) ∧
    partsOf (opened.inner.objectForKey "from") = .ok parts ∧
    hashnameForParts prim.sha256 parts =
      (after.identities (after.lines line).toIdentity).hashname prim.sha256 ∧
    (parts.bind fun known => known.lookup own.csid.identifier) =
      some (hexString (prim.sha256 (opened.inner.body.getD [])))

/-- The open packet is acceptable for an identity already in the cache, whose
parts name another key than the one it carries. -/
def Impersonates (own : THCipherSet) (openPacket : THPacket) (store : Store) : Prop :=
  ∃ opened parts ref, openWith prim own openPacket = .ok (some opened) ∧
    partsOf (opened.inner.objectForKey "from") = .ok parts ∧
    store.identityCache.lookup (hashnameForParts prim.sha256 parts) = some ref ∧
    Acceptable opened (currentLineOf store ref) ∧
    ¬ keyMatches prim.sha256 parts opened.incomingCS

theorem keyMatches_iff_names {own : THCipherSet} {openPacket : THPacket} {opened : Opened}
    (read : openWith prim own openPacket = .ok (some opened)) (parts : Option Parts) :
    keyMatches prim.sha256 parts opened.incomingCS ↔
      (parts.bind fun known => known.lookup own.csid.identifier) =
        some (hexString (prim.sha256 (opened.inner.body.getD []))) := by
  obtain ⟨same, fingerprint⟩ := openWith_key prim read
  unfold keyMatches
  rw [same, fingerprint]

/-- An impersonating open is accepted, and its line does not speak for the identity. -/
theorem impersonates_accepted {own : THCipherSet} {openPacket : THPacket} {store : Store}
    (lineKeys : KeyPair) (impersonates : Impersonates prim own openPacket store) :
    ∃ after line, processOpen prim own lineKeys openPacket store = .ok (after, some line) ∧
      ¬ SpeaksFor prim own openPacket after line := by
  obtain ⟨opened, parts, ref, read, readParts, found, acceptable, foreign⟩ := impersonates
  have processed := processOpen_opened prim read lineKeys store
  rw [acceptOpen_known prim lineKeys readParts found] at processed
  rw [← currentLineOf_setKeys store ref parts opened.incomingCS] at acceptable
  obtain ⟨after, line, taken⟩ := (takeOpen_gives_iff opened lineKeys ref _).mpr acceptable
  refine ⟨after, line, processed.trans taken, ?_⟩
  rintro ⟨other, otherParts, readOther, readOtherParts, _, names⟩
  rw [read] at readOther
  cases readOther
  rw [readParts] at readOtherParts
  cases readOtherParts
  exact foreign ((keyMatches_iff_names prim read parts).mpr names)

theorem accepted_speaks {own : THCipherSet} {openPacket : THPacket} {store after : Store}
    {lineKeys : KeyPair} {line : LineRef} (sound : Sound store)
    (honest : ¬ Impersonates prim own openPacket store)
    (processed : processOpen prim own lineKeys openPacket store = .ok (after, some line)) :
    SpeaksFor prim own openPacket after line := by
  rcases processOpen_ok prim processed with
    ⟨_, _, absent⟩ | ⟨opened, parts, read, readParts, accepted⟩
  · cases absent
  · refine ⟨opened, parts, read, readParts, ?_⟩
    cases found : store.identityCache.lookup (hashnameForParts prim.sha256 parts) with
    | some ref =>
        rw [acceptOpen_known prim lineKeys readParts found] at accepted
        have looked := sound_updateIdentity sound ref
          (THIdentity.setKeys parts opened.incomingCS) rfl (Or.inl rfl)
        obtain ⟨_, owner, names⟩ := takeOpen_given looked accepted
        have acceptable := (takeOpen_gives_iff opened lineKeys ref _).mp ⟨after, line, accepted⟩
        rw [currentLineOf_setKeys] at acceptable
        have named : ((after.identities ref).hashnameCache) =
            some (hashnameForParts prim.sha256 parts) := by
          rw [names ref, identities_updateIdentity_same]
          exact (sound.keyed _ _ found).2
        constructor
        · rw [owner line rfl, THIdentity.hashname, named, Option.getD_some]
        · apply (keyMatches_iff_names prim read parts).mp
          by_contra foreign
          exact honest ⟨opened, parts, ref, read, readParts, found, acceptable, foreign⟩
    | none =>
        by_cases belongs : keyMatches prim.sha256 parts opened.incomingCS
        · rw [acceptOpen_new prim lineKeys readParts found belongs] at accepted
          have looked := sound_cacheIdentity sound (hashnameForParts prim.sha256 parts)
            (THIdentity.init.setKeys parts opened.incomingCS) rfl
          obtain ⟨_, owner, names⟩ := takeOpen_given looked accepted
          have named : ((after.identities store.nextIdentity).hashnameCache) =
              some (hashnameForParts prim.sha256 parts) := by
            rw [names]
            simp [Store.cacheIdentity, Store.allocIdentity]
          constructor
          · rw [owner line rfl, THIdentity.hashname, named, Option.getD_some]
          · exact (keyMatches_iff_names prim read parts).mp belongs
        · rw [acceptOpen_foreign prim lineKeys readParts found belongs] at accepted
          cases accepted

/-- In every reachable store an open packet that is accepted speaks for its
identity, exactly when it does not impersonate a cached one. -/
theorem open_authentic_iff (events : List StoreEvent) (own : THCipherSet) (lineKeys : KeyPair)
    (openPacket : THPacket) :
    (∀ after line, processOpen prim own lineKeys openPacket
          (run (storeStep prim) .start events) = .ok (after, some line) →
        SpeaksFor prim own openPacket after line) ↔
      ¬ Impersonates prim own openPacket (run (storeStep prim) .start events) := by
  constructor
  · intro speaks impersonates
    obtain ⟨after, line, processed, lies⟩ := impersonates_accepted prim lineKeys impersonates
    exact lies (speaks after line processed)
  · intro honest after line processed
    exact accepted_speaks prim (sound_run prim events) honest processed

def lineKeys : KeyPair := ⟨[], []⟩

set_option maxRecDepth 10000 in
/-- The victim's hashname was met in a see. The attacker's open names the
victim's parts and is accepted under the attacker's key. -/
theorem known_hashname_impersonated :
    ∃ after line, processOpen joiningPrimitives receiver lineKeys (openFrom attackerKey 49)
        (run (storeStep joiningPrimitives) .start
          [.identityFromHashname (hashnameForParts joiningPrimitives.sha256 (some victimParts))]) =
        .ok (after, some line) ∧
      ¬ SpeaksFor joiningPrimitives receiver (openFrom attackerKey 49) after line := by
  refine ⟨_, _, rfl, ?_⟩
  rintro ⟨opened, parts, read, readParts, _, names⟩
  have opens : openWith joiningPrimitives receiver (openFrom attackerKey 49) =
      .ok (some (openedFrom attackerKey 49 1)) := rfl
  rw [opens] at read
  cases read
  have known : partsOf ((openedFrom attackerKey 49 1).inner.objectForKey "from") =
      .ok (some victimParts) := rfl
  rw [known] at readParts
  cases readParts
  exact absurd names (by decide)

/-! ## Rejected opens -/

/-- The cache and, of every identity, the keys, parts, channels and line, with
all line infos, are as before. Dictionaries are compared by their entries. -/
structure Unchanged (before after : Store) : Prop where
  cached : after.identityCache.lookup = before.identityCache.lookup
  cipherParts : ∀ ref, (after.identities ref).cipherParts.lookup =
    (before.identities ref).cipherParts.lookup
  parts : ∀ ref, (after.identities ref).parts.map Dictionary.lookup =
    (before.identities ref).parts.map Dictionary.lookup
  channels : ∀ ref, (after.identities ref).channels = (before.identities ref).channels
  currentLine : ∀ ref, (after.identities ref).currentLine = (before.identities ref).currentLine
  lines : after.lines = before.lines

/-- The identity already has just this key and these parts. -/
def HoldsKeys (identity : THIdentity) (parts : Option Parts) (cipherSet : THCipherSet) : Prop :=
  identity.cipherParts.lookup =
      (Dictionary.single cipherSet.csid.identifier cipherSet : CipherParts).lookup ∧
    identity.parts.map Dictionary.lookup = parts.map Dictionary.lookup

/-- The open packet decrypts and is then turned away, but the lookup of its
sender has stored a new identity or put other keys or parts on a known one. -/
def Disturbs (own : THCipherSet) (openPacket : THPacket) (store : Store) : Prop :=
  ∃ opened parts, openWith prim own openPacket = .ok (some opened) ∧
    partsOf (opened.inner.objectForKey "from") = .ok parts ∧
    ((store.identityCache.lookup (hashnameForParts prim.sha256 parts) = none ∧
        keyMatches prim.sha256 parts opened.incomingCS ∧ Rejected opened none) ∨
      ∃ ref, store.identityCache.lookup (hashnameForParts prim.sha256 parts) = some ref ∧
        ¬ HoldsKeys (store.identities ref) parts opened.incomingCS ∧
        Rejected opened (currentLineOf store ref))

theorem unchanged_refl (store : Store) : Unchanged store store :=
  ⟨rfl, fun _ => rfl, fun _ => rfl, fun _ => rfl, fun _ => rfl, rfl⟩

theorem unchanged_setKeys_iff (store : Store) (ref : IdentityRef) (parts : Option Parts)
    (cipherSet : THCipherSet) :
    Unchanged store (store.updateIdentity ref (THIdentity.setKeys parts cipherSet)) ↔
      HoldsKeys (store.identities ref) parts cipherSet := by
  constructor
  · intro unchanged
    have keys := unchanged.cipherParts ref
    have known := unchanged.parts ref
    rw [identities_updateIdentity_same] at keys known
    exact ⟨keys.symm, known.symm⟩
  · rintro ⟨keys, known⟩
    have each : ∀ other, ((store.updateIdentity ref (THIdentity.setKeys parts cipherSet)).identities
        other = store.identities other) ∨ other = ref := by
      intro other
      by_cases same : other = ref
      · exact Or.inr same
      · exact Or.inl (identities_updateIdentity_other store ref other _ same)
    refine ⟨rfl, fun other => ?_, fun other => ?_, fun other => ?_, fun other => ?_, rfl⟩ <;>
      rcases each other with same | rfl
    · rw [same]
    · rw [identities_updateIdentity_same]
      exact keys.symm
    · rw [same]
    · rw [identities_updateIdentity_same]
      exact known.symm
    · rw [same]
    · rw [identities_updateIdentity_same]
      rfl
    · rw [same]
    · rw [identities_updateIdentity_same]
      rfl

theorem cacheIdentity_changes (store : Store) {hashname : String} (identity : THIdentity)
    (absent : store.identityCache.lookup hashname = none) :
    ¬ Unchanged store (store.cacheIdentity hashname identity) := by
  intro unchanged
  have same := congrFun unchanged.cached hashname
  rw [absent] at same
  simp [Store.cacheIdentity] at same

/-- A nil result of `processOpen:` leaves everything as it was exactly when the
packet is not one that disturbs the store. -/
theorem rejected_open_unchanged_iff (own : THCipherSet) (lineKeys : KeyPair)
    (openPacket : THPacket) (store : Store) :
    (∀ after, processOpen prim own lineKeys openPacket store = .ok (after, none) →
        Unchanged store after) ↔
      ¬ Disturbs prim own openPacket store := by
  constructor
  · rintro harmless ⟨opened, parts, read, readParts, absent | known⟩
    · obtain ⟨absent, belongs, rejected⟩ := absent
      have processed := processOpen_opened prim read lineKeys store
      rw [acceptOpen_new prim lineKeys readParts absent belongs, takeOpen_rejected lineKeys
        (currentLineOf_cacheIdentity store _ parts opened.incomingCS) rejected] at processed
      exact cacheIdentity_changes store _ absent (harmless _ processed)
    · obtain ⟨ref, found, other, rejected⟩ := known
      have processed := processOpen_opened prim read lineKeys store
      rw [acceptOpen_known prim lineKeys readParts found, takeOpen_rejected lineKeys
        (currentLineOf_setKeys store ref parts opened.incomingCS) rejected] at processed
      exact other ((unchanged_setKeys_iff store ref parts opened.incomingCS).mp
        (harmless _ processed))
  · intro calm after processed
    rcases processOpen_ok prim processed with
      ⟨_, rfl, _⟩ | ⟨opened, parts, read, readParts, accepted⟩
    · exact unchanged_refl _
    · cases found : store.identityCache.lookup (hashnameForParts prim.sha256 parts) with
      | some ref =>
          rw [acceptOpen_known prim lineKeys readParts found] at accepted
          obtain ⟨rfl, rejected⟩ := (takeOpen_rejected_iff opened lineKeys ref _ _).mp accepted
          rw [currentLineOf_setKeys] at rejected
          refine (unchanged_setKeys_iff store ref parts opened.incomingCS).mpr ?_
          by_contra other
          exact calm ⟨opened, parts, read, readParts, Or.inr ⟨ref, found, other, rejected⟩⟩
      | none =>
          by_cases belongs : keyMatches prim.sha256 parts opened.incomingCS
          · rw [acceptOpen_new prim lineKeys readParts found belongs] at accepted
            obtain ⟨rfl, rejected⟩ :=
              (takeOpen_rejected_iff opened lineKeys store.nextIdentity _ _).mp accepted
            rw [currentLineOf_cacheIdentity] at rejected
            exact absurd ⟨opened, parts, read, readParts, Or.inl ⟨found, belongs, rejected⟩⟩ calm
          · rw [acceptOpen_foreign prim lineKeys readParts found belongs] at accepted
            cases accepted
            exact unchanged_refl store

/-- The victim has opened a line at time 5. -/
def victimKnown : Store :=
  run (storeStep joiningPrimitives) .start [.processOpen receiver lineKeys (openFrom victimKey 53)]

set_option maxRecDepth 10000 in
/-- An open of time 1 under the attacker's key is turned away for its age, and
the attacker's key stands in the victim's identity. -/
theorem stale_open_replaces_keys :
    ∃ after, processOpen joiningPrimitives receiver lineKeys (openFrom attackerKey 49) victimKnown =
        .ok (after, none) ∧ ¬ Unchanged victimKnown after := by
  refine ⟨_, rfl, fun unchanged => ?_⟩
  have keys := congrFun (unchanged.cipherParts 0) "3a"
  exact absurd keys (by decide)

end Telehash.OpenAuthentication
