import Telehash.Switch

/-!
A line read on its own: which open spoke for it, what it was told and what its
keys are made of. The two classes of line infos are read through one set of
functions.
-/

namespace Telehash.LineInfo
open Association Foundation Packet Identity CipherSet Switch

/-! ## Line infos of both classes -/

def csidOf : THCipherSetLineInfo → CipherSetId
  | .info2a _ => .cs2a
  | .info3a _ => .cs3a

def cipherSetOf : THCipherSetLineInfo → Option THCipherSet
  | .info2a info => info.cipherSet
  | .info3a info => info.cipherSet

def keysOf : THCipherSetLineInfo → Option KeyPair
  | .info2a info => info.ecdh
  | .info3a info => some ⟨info.publicLineKey, info.secretLineKey⟩

def remoteKeyOf : THCipherSetLineInfo → Option Data
  | .info2a info => info.remoteECCKey
  | .info3a info => info.remoteLineKey

def encryptorKeyOf : THCipherSetLineInfo → Option Data
  | .info2a info => info.encryptorKey
  | .info3a info => info.encryptorKey

def decryptorKeyOf : THCipherSetLineInfo → Option Data
  | .info2a info => info.decryptorKey
  | .info3a info => info.decryptorKey

def ownKeys (line : THLine) : Option KeyPair := line.cipherSetInfo.bind keysOf

def remoteKey (line : THLine) : Option Data := line.cipherSetInfo.bind remoteKeyOf

def encryptorKey (line : THLine) : Option Data := line.cipherSetInfo.bind encryptorKeyOf

def decryptorKey (line : THLine) : Option Data := line.cipherSetInfo.bind decryptorKeyOf

variable (prim : Primitives) (generated : KeyPair → Prop)

def agreedKey (csid : CipherSetId) (remoteKey secretKey : Data) : Data :=
  match csid with
  | .cs2a => (prim.ecdhAgree remoteKey secretKey).getD []
  | .cs3a => prim.beforenm remoteKey secretKey

def idBytes (lineId : String) : Data := readBytes prim.beyond 16 (dataFromHexString lineId)

/-- A line info of the class in use, on a cipher set of that class. -/
def Equipped (csid : CipherSetId) (line : THLine) : Prop :=
  ∃ info, line.cipherSetInfo = some info ∧ csidOf info = csid ∧
    (cipherSetOf info).map THCipherSet.csid = some csid ∧
    ∀ keys, keysOf info = some keys → generated keys

/-- Both line keys are made of the ids and the ephemeral keys the line has now. -/
def Finalized (csid : CipherSetId) (line : THLine) : Prop :=
  ∃ keys remote outLineId inLineId, ownKeys line = some keys ∧ generated keys ∧
    remoteKey line = some remote ∧ line.outLineId = some (.string outLineId) ∧
    line.inLineId = some inLineId ∧
    decryptorKey line = some (keyOf prim (agreedKey prim csid remote keys.secretKey)
      (idBytes prim outLineId) (idBytes prim inLineId)) ∧
    encryptorKey line = some (keyOf prim (agreedKey prim csid remote keys.secretKey)
      (idBytes prim inLineId) (idBytes prim outLineId))

/-- The open carries the id and the ephemeral key of the line. -/
def Announces (csid : CipherSetId) (line : THLine) (opened : Opened) : Prop :=
  ∃ keys lineId, ownKeys line = some keys ∧ line.inLineId = some lineId ∧
    opened.inner.objectForKey "line" = some (.string lineId) ∧
    opened.remoteKey = receivedKey csid keys.publicKey

/-- The line has its remote id and its remote key from one open, or neither. -/
def Heard (opens : List Opened) (line : THLine) : Prop :=
  (line.outLineId = none ∧ remoteKey line = none) ∨
    ∃ opened ∈ opens, opened.inner.objectForKey "line" = line.outLineId ∧
      remoteKey line = some opened.remoteKey

/-- The open names the parts of these keys and is under the cipher set in use. -/
def Signed (csid : CipherSetId) (cipherParts : CipherParts) (opened : Opened) : Prop :=
  partsOf (opened.inner.objectForKey "from") =
      .ok (some (fingerprintParts prim.sha256 cipherParts)) ∧
    opened.incomingCS.csid = csid

/-! ## Changes to a line -/

/-- What other ends were told of the line stays true of it. -/
structure Extends (before after : THLine) : Prop where
  owner : after.toIdentity = before.toIdentity
  lineId : ∀ lineId, before.inLineId = some lineId → after.inLineId = some lineId
  keys : ∀ keys, ownKeys before = some keys → ownKeys after = some keys

/-- An extension of the own half alone. -/
structure Prepares (before after : THLine) : Prop extends Extends before after where
  outLineId : after.outLineId = before.outLineId
  remote : remoteKey after = remoteKey before
  encryptor : encryptorKey after = encryptorKey before
  decryptor : decryptorKey after = decryptorKey before

section Changes
variable {prim generated} {csid : CipherSetId} {before after : THLine} {opens : List Opened}

theorem announces_extends {opened : Opened} (extends_ : Extends before after)
    (announces : Announces csid before opened) : Announces csid after opened := by
  obtain ⟨keys, lineId, held, named, told, sent⟩ := announces
  exact ⟨keys, lineId, extends_.keys keys held, extends_.lineId lineId named, told, sent⟩

theorem heard_prepares (prepares : Prepares before after) (heard : Heard opens before) :
    Heard opens after := by
  unfold Heard
  rw [prepares.outLineId, prepares.remote]
  exact heard

theorem finalized_prepares (prepares : Prepares before after)
    (finalized : Finalized prim generated csid before) : Finalized prim generated csid after := by
  obtain ⟨keys, remote, outLineId, inLineId, held, drawn, told, out, in_, decrypts, encrypts⟩ :=
    finalized
  refine ⟨keys, remote, outLineId, inLineId, prepares.keys keys held, drawn, ?_, ?_,
    prepares.lineId inLineId in_, ?_, ?_⟩
  · rw [prepares.remote, told]
  · rw [prepares.outLineId, out]
  · rw [prepares.decryptor, decrypts]
  · rw [prepares.encryptor, encrypts]

end Changes

theorem readParts_rest (rest : List (String × String)) (read : Parts)
    (unique : ((read.entries ++ rest).map Prod.fst).Nodup) :
    ∃ parts : Parts, (rest.map fun entry => (entry.1, Json.string entry.2)).foldlM
        (fun (parts : Parts) field => match field.2 with
          | .string text => Except.ok (parts.insert field.1 text)
          | _ => .error Fault.unrecognizedSelector) read = .ok parts ∧
      parts.entries = read.entries ++ rest := by
  induction rest generalizing read with
  | nil => exact ⟨read, rfl, (List.append_nil _).symm⟩
  | cons entry rest ih =>
      have absent : entry.1 ∉ read.entries.map Prod.fst := by
        intro member
        rw [List.map_append] at unique
        exact (List.nodup_append.mp unique).2.2 _ member _ (by simp) rfl
      have grown : (read.insert entry.1 entry.2).entries = read.entries ++ [entry] :=
        put_new _ _ _ absent
      obtain ⟨parts, taken, entries⟩ := ih (read.insert entry.1 entry.2)
        (by rw [grown, List.append_assoc]; exact unique)
      refine ⟨parts, taken, ?_⟩
      rw [entries, grown, List.append_assoc]
      rfl

/-- The parts written into an open are read back from it. -/
theorem partsOf_written (parts : Parts) :
    partsOf (some (.object (parts.entries.map fun entry => (entry.1, Json.string entry.2)))) =
      .ok (some parts) := by
  obtain ⟨read, taken, entries⟩ := readParts_rest parts.entries .empty parts.unique
  have same : read = parts := Dictionary.ext entries
  subst same
  have whole :
      readParts (read.entries.map fun entry => (entry.1, Json.string entry.2)) = .ok read :=
    taken
  simp only [partsOf, whole, ok_bind, pure_eq_ok]

theorem heard_more {opens more : List Opened} (grown : ∀ opened ∈ opens, opened ∈ more)
    {line : THLine} (heard : Heard opens line) : Heard more line := by
  rcases heard with nothing | ⟨opened, member, told, remote⟩
  · exact Or.inl nothing
  · exact Or.inr ⟨opened, grown opened member, told, remote⟩

/-- Putting the ephemeral keys in place changes nothing that is there. -/
theorem withLineKeys_ok {csid : CipherSetId} {lineKeys keys : KeyPair}
    {info after : THCipherSetLineInfo} (drawn : generated lineKeys)
    (held : ∀ keys, keysOf info = some keys → generated keys)
    (placed : withLineKeys csid lineKeys info = .ok (after, keys)) :
    csidOf after = csidOf info ∧ cipherSetOf after = cipherSetOf info ∧
      keysOf after = some keys ∧ generated keys ∧
      (∀ known, keysOf info = some known → known = keys) ∧
      remoteKeyOf after = remoteKeyOf info ∧ encryptorKeyOf after = encryptorKeyOf info ∧
      decryptorKeyOf after = decryptorKeyOf info := by
  cases info with
  | info2a info =>
      simp only [withLineKeys] at placed
      split at placed
      · cases placed
        refine ⟨rfl, rfl, rfl, ?_, ?_, rfl, rfl, rfl⟩
        · cases known : info.ecdh with
          | none => exact drawn
          | some keys => exact held keys known
        · intro known same
          have stored : info.ecdh = some known := same
          simp [stored]
      · cases placed
  | info3a info =>
      simp only [withLineKeys] at placed
      split at placed
      · cases placed
        refine ⟨rfl, rfl, rfl, held _ rfl, ?_, rfl, rfl, rfl⟩
        intro known same
        exact (Option.some.inj same).symm
      · cases placed

/-- The line info an open starts from, made or kept, says of the line what was
said before. -/
theorem started_ok {csid : CipherSetId} {lineKeys : KeyPair} {line : THLine}
    {remote : THCipherSet} (class_ : remote.csid = csid) (drawn : generated lineKeys)
    (ready : line.cipherSetInfo = none ∨ Equipped generated csid line)
    {started : THCipherSetLineInfo}
    (begun : line.cipherSetInfo.getD (startLineInfo csid (some remote) lineKeys) = started) :
    csidOf started = csid ∧ (cipherSetOf started).map THCipherSet.csid = some csid ∧
      (∀ keys, keysOf started = some keys → generated keys) ∧
      (∀ keys, ownKeys line = some keys → keysOf started = some keys) ∧
      remoteKeyOf started = remoteKey line ∧ encryptorKeyOf started = encryptorKey line ∧
      decryptorKeyOf started = decryptorKey line := by
  rcases ready with bare | ⟨info, stored, infoClass, cipherSet, held⟩
  · simp only [ownKeys, remoteKey, encryptorKey, decryptorKey, bare, Option.bind_none]
    rw [bare, Option.getD_none] at begun
    subst begun
    cases csid with
    | cs2a =>
        refine ⟨rfl, congrArg some class_, ?_, ?_, rfl, rfl, rfl⟩ <;>
          · intro keys absent
            cases absent
    | cs3a =>
        refine ⟨rfl, congrArg some class_, ?_, ?_, rfl, rfl, rfl⟩
        · intro keys same
          cases same
          exact drawn
        · intro keys absent
          cases absent
  · simp only [ownKeys, remoteKey, encryptorKey, decryptorKey, stored, Option.bind_some]
    rw [stored, Option.getD_some] at begun
    subst begun
    exact ⟨infoClass, cipherSet, held, fun keys same => same, rfl, rfl, rfl⟩

/-- Generating an open completes the own half of a line and changes nothing
that was there. -/
theorem prepared_ok {csid : CipherSetId} {lineKeys keys : KeyPair} {line : THLine}
    {remote : THCipherSet} {info : THCipherSetLineInfo} {freshId lineId : String}
    (class_ : remote.csid = csid) (drawn : generated lineKeys)
    (ready : line.cipherSetInfo = none ∨ Equipped generated csid line)
    (placed : withLineKeys csid lineKeys
      (line.cipherSetInfo.getD (startLineInfo csid (some remote) lineKeys)) = .ok (info, keys))
    (named : line.inLineId.getD freshId = lineId) :
    Prepares line { line with cipherSetInfo := some info, inLineId := some lineId } ∧
      Equipped generated csid { line with cipherSetInfo := some info, inLineId := some lineId } ∧
      keysOf info = some keys := by
  obtain ⟨startedClass, startedSet, startedKeys, startedOwn, startedRemote, startedEnc,
      startedDec⟩ :=
    started_ok generated class_ drawn ready rfl
  obtain ⟨infoClass, infoSet, infoKeys, keysDrawn, infoKnown, infoRemote, infoEnc, infoDec⟩ :=
    withLineKeys_ok generated drawn startedKeys placed
  refine ⟨⟨⟨rfl, ?_, ?_⟩, rfl, infoRemote.trans startedRemote, infoEnc.trans startedEnc,
    infoDec.trans startedDec⟩, ⟨info, rfl, infoClass.trans startedClass, ?_, ?_⟩, infoKeys⟩
  · intro known held
    rw [held] at named
    exact congrArg some named.symm
  · intro known held
    rw [infoKnown known (startedOwn known held)]
    exact infoKeys
  · rw [infoSet, startedSet]
  · intro known held
    rw [infoKeys] at held
    cases held
    exact keysDrawn

theorem readText_some_iff {value : Option Json} {text : String} :
    readText value = .ok (some text) ↔ value = some (.string text) := by
  rcases value with _ | _ | _ | _ | _ | _ | _ <;> simp [readText]

theorem lineIdBytes_ok {lineId : Option Json} {bytes : Data}
    (copied : lineIdBytes prim lineId = .ok bytes) :
    ∃ text, lineId = some (.string text) ∧ bytes = idBytes prim text := by
  obtain ⟨known, read, copied⟩ := (bind_ok_iff _ _ _).mp copied
  cases known with
  | none => cases copied
  | some text =>
      cases copied
      exact ⟨text, readText_some_iff.mp read, rfl⟩

theorem ownIdBytes_ok {lineId : Option String} {bytes : Data}
    (copied : lineIdBytes prim (lineId.map Json.string) = .ok bytes) :
    ∃ text, lineId = some text ∧ bytes = idBytes prim text := by
  obtain ⟨text, named, rfl⟩ := lineIdBytes_ok prim copied
  obtain ⟨known, rfl, same⟩ := Option.map_eq_some_iff.mp named
  cases same
  exact ⟨_, rfl, rfl⟩

/-- Finalizing keeps everything but the keys it computes, and a 2a line that
has no ephemeral keys yet draws them. -/
theorem finalizeLineKeys_ok {csid : CipherSetId} {lineKeys : KeyPair} {line after : THLine}
    {remote : Data} (drawn : generated lineKeys) (equipped : Equipped generated csid line)
    (told : remoteKey line = some remote)
    (finalized : finalizeLineKeys prim lineKeys line = .ok after) :
    Extends line after ∧ after.inLineId = line.inLineId ∧ after.outLineId = line.outLineId ∧
      remoteKey after = some remote ∧ Equipped generated csid after ∧
      Finalized prim generated csid after := by
  obtain ⟨info, stored, class_, cipherSet, held⟩ := equipped
  unfold finalizeLineKeys at finalized
  rw [stored] at finalized
  cases info with
  | info2a info =>
      cases class_
      simp only [cipherSetOf, csidOf] at cipherSet
      cases set : info.cipherSet with
      | none => rw [set] at cipherSet; cases cipherSet
      | some known =>
          have remoteStored : info.remoteECCKey = some remote := by
            simpa [remoteKey, stored, remoteKeyOf] using told
          have class_ : known.csid = .cs2a := by simpa [set] using cipherSet
          simp only [set, class_, ↓reduceIte, finalize2a, remoteStored] at finalized
          obtain ⟨out, outCopied, finalized⟩ := (bind_ok_iff _ _ _).mp finalized
          obtain ⟨in_, inCopied, finalized⟩ := (bind_ok_iff _ _ _).mp finalized
          obtain ⟨outText, outLineId, rfl⟩ := lineIdBytes_ok prim outCopied
          obtain ⟨inText, inLineId, rfl⟩ := ownIdBytes_ok prim inCopied
          cases finalized
          have keysDrawn : generated (info.ecdh.getD lineKeys) := by
            cases known : info.ecdh with
            | none => exact drawn
            | some keys => exact held keys known
          refine ⟨⟨rfl, fun _ same => same, ?_⟩, rfl, rfl, rfl, ?_, ?_⟩
          · intro keys same
            have stored : info.ecdh = some keys := by simpa [ownKeys, stored, keysOf] using same
            simp [ownKeys, keysOf, stored]
          · refine ⟨_, rfl, rfl, by simpa [cipherSetOf, csidOf, set] using class_, ?_⟩
            intro keys same
            cases same
            exact keysDrawn
          · exact ⟨_, remote, outText, inText, rfl, keysDrawn, rfl, outLineId, inLineId, rfl, rfl⟩
  | info3a info =>
      cases class_
      simp only [cipherSetOf, csidOf] at cipherSet
      cases set : info.cipherSet with
      | none => rw [set] at cipherSet; cases cipherSet
      | some known =>
          have remoteStored : info.remoteLineKey = some remote := by
            simpa [remoteKey, stored, remoteKeyOf] using told
          have class_ : known.csid = .cs3a := by simpa [set] using cipherSet
          simp only [set, class_, ↓reduceIte, finalize3a, remoteStored] at finalized
          obtain ⟨out, outCopied, finalized⟩ := (bind_ok_iff _ _ _).mp finalized
          obtain ⟨in_, inCopied, finalized⟩ := (bind_ok_iff _ _ _).mp finalized
          obtain ⟨outText, outLineId, rfl⟩ := lineIdBytes_ok prim outCopied
          obtain ⟨inText, inLineId, rfl⟩ := ownIdBytes_ok prim inCopied
          cases finalized
          have keysDrawn : generated ⟨info.publicLineKey, info.secretLineKey⟩ := held _ rfl
          refine ⟨⟨rfl, fun _ same => same, ?_⟩, rfl, rfl, rfl, ?_, ?_⟩
          · intro keys same
            simpa [ownKeys, stored, keysOf] using same
          · refine ⟨_, rfl, rfl, by simpa [cipherSetOf, csidOf, set] using class_, ?_⟩
            intro keys same
            cases same
            exact keysDrawn
          · exact ⟨_, remote, outText, inText, rfl, keysDrawn, rfl, outLineId, inLineId, rfl, rfl⟩

/-- Setting the remote key on an equipped line sets it and nothing else. -/
theorem setRemoteKey_ok {csid : CipherSetId} {line : THLine} {told : Data}
    {info : Option THCipherSetLineInfo} (equipped : Equipped generated csid line)
    (taken : setRemoteKey csid told line.cipherSetInfo = .ok info) :
    ∃ after, info = some after ∧ keysOf after = ownKeys line ∧ remoteKeyOf after = some told ∧
      csidOf after = csid ∧ (cipherSetOf after).map THCipherSet.csid = some csid ∧
      ∀ keys, keysOf after = some keys → generated keys := by
  obtain ⟨before, stored, rfl, cipherSet, held⟩ := equipped
  rw [stored] at taken
  cases before with
  | info2a before =>
      cases taken
      exact ⟨_, rfl, by simp [ownKeys, stored, keysOf], rfl, rfl, cipherSet, held⟩
  | info3a before =>
      cases taken
      exact ⟨_, rfl, by simp [ownKeys, stored, keysOf], rfl, rfl, cipherSet, held⟩

end Telehash.LineInfo
