import Telehash.Identity

/-!
`processOpen:` of THCipherSet2a.m and THCipherSet3a.m. The cryptographic
functions are parameters. The two methods differ in how an open packet is read
and authenticated; from the identity lookup on they take the same steps, with
the signature check of 2a standing between that lookup and the line.
-/

namespace Telehash.CipherSet
open Association Foundation Packet Identity

structure Primitives where
  serialization : NSJSONSerialization
  stack : StackBytes
  -- what lies in memory behind a buffer, for the fixed-size copies of keys
  beyond : Data
  sha256 : Data → Data
  beforenm : (publicKey secretKey : Data) → Data
  secretboxOpen : (key cipherText : Data) → Option Data
  onetimeauthVerify : (mac message key : Data) → Bool
  -- the DER text of the key read, or nothing where the reader raises
  rsaLoad : Data → Option Data
  rsaDecrypt : (secretKey cipherText : Data) → Option Data
  rsaVerify : (publicKey message signature : Data) → Bool
  gcmDecrypt : (key cipherText mac : Data) → Option Data
  ecdhAgree : (remotePublicKey secretKey : Data) → Option Data

/-- An open packet as read by `processOpen:` up to the identity lookup. For 3a
the authentication is done by then; for 2a it is evaluated after the lookup. -/
structure Opened where
  inner : THPacket
  incomingCS : THCipherSet
  remoteKey : Data
  authentic : Except Fault Bool

def readBytes (beyond : Data) (count : Nat) (data : Data) : Data := (data ++ beyond).take count

def publicKeyBytes : Nat := 32

def macBytes : Nat := 16

def packetStart : Nat := macBytes + 1 + publicKeyBytes

variable (prim : Primitives)

/-- The key of the inner packet, taken only if the set built from it has the
fingerprint of the bytes themselves. -/
def sameFingerprint (incoming : THCipherSet) (inner : THPacket) : Bool :=
  hexString (incoming.fingerprint prim.sha256) = hexString (prim.sha256 (inner.body.getD []))

def readInner3a (secretKey pubLineKey : Data) (openPacket inner : THPacket) : Option Opened :=
  let body := openPacket.body.getD []
  let incomingCS : THCipherSet :=
    ⟨.cs3a, readBytes prim.beyond publicKeyBytes (inner.body.getD []), none⟩
  let sharedLineKey := prim.beforenm incomingCS.publicKey secretKey
  if ¬ sameFingerprint prim incomingCS inner then none
  else if ¬ prim.onetimeauthVerify ((body.drop 1).take macBytes) (body.drop (macBytes + 1))
      sharedLineKey then none
  else some ⟨inner, incomingCS, pubLineKey, .ok true⟩

def open3a (secretKey : Data) (openPacket : THPacket) : Except Fault (Option Opened) := do
  let body := openPacket.body.getD []
  let pubLineKey ← subdataWithRange body (macBytes + 1) publicKeyBytes
  let encryptedLength ← lengthSub body.length packetStart
  let encryptedPacket ← subdataWithRange body packetStart encryptedLength
  let _ ← lengthSub encryptedPacket.length macBytes
  match prim.secretboxOpen (prim.beforenm pubLineKey secretKey) encryptedPacket with
  | none => return none
  | some message =>
      match ← packetData prim.serialization prim.stack message with
      | none => return none
      | some inner =>
          return readInner3a prim secretKey pubLineKey openPacket
            { inner with returnPath := openPacket.returnPath }

def hexDigitValue (byte : UInt8) : Option UInt8 :=
  if 48 ≤ byte ∧ byte ≤ 57 then some (byte - 48)
  else if 97 ≤ byte ∧ byte ≤ 102 then some (byte - 87)
  else if 65 ≤ byte ∧ byte ≤ 70 then some (byte - 55)
  else none

/-- The low byte of strtoul to base 16 on two characters: it skips a blank or
a plus, negates behind a minus and stops at the first other character. -/
def wholeByte (first second : UInt8) : UInt8 :=
  match hexDigitValue first with
  | some high =>
      match hexDigitValue second with
      | some low => high * 16 + low
      | none => high
  | none =>
      let digit := (hexDigitValue second).getD 0
      if first = 45 then 0 - digit
      else if first = 43 ∨ first = 32 ∨ (9 ≤ first ∧ first ≤ 13) then digit
      else 0

-- An odd last character is read together with the terminating zero.
def dataFromHexBytes : Data → Data
  | first :: second :: rest => wholeByte first second :: dataFromHexBytes rest
  | [first] => [wholeByte first 0]
  | [] => []

def utf16Units (char : Char) : Nat := if char.toNat < 0x10000 then 1 else 2

def utf16Length (text : String) : Nat :=
  text.toList.foldr (fun char length => utf16Units char + length) 0

-- The loop counts the UTF-16 units of the text and reads its UTF-8 bytes.
def dataFromHexString (text : String) : Data :=
  dataFromHexBytes ((utf8 text).take (utf16Length text + utf16Length text % 2))

def readNumber : Option Json → Except Fault Nat
  | none => .ok 0
  | some (.number value) => .ok (Json.number value).unsignedIntegerValue
  | some (.bool value) => .ok (Json.bool value).unsignedIntegerValue
  | some _ => .error .unrecognizedSelector

def readText : Option Json → Except Fault (Option String)
  | none => .ok none
  | some (.string text) => .ok (some text)
  | some _ => .error .unrecognizedSelector

/-- `isEqualToString:`. A message to nil answers NO; what is no string does not
know the message, nor does it do as the argument. -/
def isEqualToString (text other : Option Json) : Except Fault Bool := do
  match ← readText text with
  | none => return false
  | some own => return (← readText other) = some own

def readParts (fields : List (String × Json)) : Except Fault Parts :=
  fields.foldlM (fun parts field => match field.2 with
    | .string text => .ok (parts.insert field.1 text)
    | _ => .error .unrecognizedSelector) .empty

def partsOf : Option Json → Except Fault (Option Parts)
  | none => .ok none
  | some (.object fields) => do return some (← readParts fields)
  | some _ => .error .unrecognizedSelector

/-- The signature check of 2a, with the RSA key of the inner packet. -/
def verify2a (remoteECCKey sigData : Data) (openPacket inner : THPacket) (publicKey : Data) :
    Except Fault Bool := do
  let line ← readText (inner.objectForKey "line")
  let sigKey := prim.sha256 (remoteECCKey ++ ((line.map dataFromHexString).getD []))
  let sigMac ← subdataWithRange sigData (sigData.length - 4) 4
  let sigText ← subdataWithRange sigData 0 256
  match prim.gcmDecrypt sigKey sigText sigMac with
  | none => return false
  | some signature =>
      return prim.rsaVerify publicKey ((openPacket.body.getD []).drop 517) signature

def readInner2a (remoteECCKey sigData : Data) (openPacket inner : THPacket) :
    Except Fault (Option Opened) :=
  match prim.rsaLoad (inner.body.getD []) with
  | none => .error .keyNotLoadable
  | some publicKey =>
      let incomingCS : THCipherSet := ⟨.cs2a, publicKey, none⟩
      if ¬ sameFingerprint prim incomingCS inner then .ok none
      else .ok (some ⟨inner, incomingCS, 4 :: remoteECCKey,
        verify2a prim remoteECCKey sigData openPacket inner publicKey⟩)

def open2a (secretKey : Data) (openPacket : THPacket) : Except Fault (Option Opened) := do
  let body := openPacket.body.getD []
  let lineKey ← subdataWithRange body 1 256
  match prim.rsaDecrypt secretKey lineKey with
  | none => return none
  | some remoteECCKey => do
      let sigData ← subdataWithRange body 257 260
      let behindSig ← lengthSub body.length 517
      let innerLength ← lengthSub behindSig macBytes
      let encryptedInner ← subdataWithRange body 517 innerLength
      let macStart ← lengthSub body.length macBytes
      let mac ← subdataWithRange body macStart macBytes
      match prim.gcmDecrypt (prim.sha256 remoteECCKey) encryptedInner mac with
      | none => return none
      | some plainText =>
          match ← packetData prim.serialization prim.stack plainText with
          | none => return none
          | some inner =>
              readInner2a prim remoteECCKey sigData openPacket
                { inner with returnPath := openPacket.returnPath }

def openWith (own : THCipherSet) (openPacket : THPacket) : Except Fault (Option Opened) :=
  match own.csid with
  | .cs2a => open2a prim (own.secretKey.getD []) openPacket
  | .cs3a => open3a prim (own.secretKey.getD []) openPacket

/-! From the identity lookup on. -/

def olderThanCurrent (current : Option THLine) (time : Nat) : Bool :=
  match current with
  | some line => time < line.createdAt
  | none => false

def reopensCurrent (current : Option THLine) (lineId : Option Json) (time : Nat) :
    Except Fault Bool :=
  match current with
  | some line => do return (← isEqualToString line.outLineId lineId) && line.createdAt = time
  | none => .ok false

def replacesCurrent (current : Option THLine) (time : Nat) : Bool :=
  match current with
  | some line => 0 < line.createdAt && line.createdAt < time
  | none => false

/-- Setting the remote key on the line info of a current line. Without an info
the message goes to nil; an info of the other class does not know it. -/
def setRemoteKey (csid : CipherSetId) (remoteKey : Data) :
    Option THCipherSetLineInfo → Except Fault (Option THCipherSetLineInfo)
  | none => .ok none
  | some (.info2a info) =>
      if csid = .cs2a then .ok (some (.info2a { info with remoteECCKey := some remoteKey }))
      else .error .unrecognizedSelector
  | some (.info3a info) =>
      if csid = .cs3a then .ok (some (.info3a { info with remoteLineKey := some remoteKey }))
      else .error .unrecognizedSelector

-- A new 3a line info makes its own key pair; a 2a one waits for its first use.
def newLineInfo (cipherSet : THCipherSet) (remoteKey : Data) (lineKeys : KeyPair) :
    THCipherSetLineInfo :=
  match cipherSet.csid with
  | .cs2a => .info2a ⟨some cipherSet, none, some remoteKey, none, none⟩
  | .cs3a => .info3a ⟨some cipherSet, lineKeys.publicKey, lineKeys.secretKey, some remoteKey,
      none, none⟩

def handleOpen (lineId : Option Json) (time : Nat) (line : THLine) : THLine :=
  { line with outLineId := lineId, createdAt := time }

def currentLineOf (store : Store) (sender : IdentityRef) : Option THLine :=
  (store.identities sender).currentLine.map store.lines

/-- The line of the sender, taken over or made, with what the open says. -/
def takeLine (opened : Opened) (lineKeys : KeyPair) (sender : IdentityRef)
    (lineId : Option Json) (time : Nat) (store : Store) :
    Except Fault (Store × Option LineRef) :=
  match (store.identities sender).currentLine with
  | some newLine => do
      let info ← setRemoteKey opened.incomingCS.csid opened.remoteKey
        (store.lines newLine).cipherSetInfo
      return (store.updateLine newLine fun line =>
        handleOpen lineId time { line with cipherSetInfo := info }, some newLine)
  | none =>
      let info := newLineInfo opened.incomingCS opened.remoteKey lineKeys
      let newLine := { THLine.new sender with cipherSetInfo := some info }
      return ((store.allocLine (handleOpen lineId time newLine)).updateIdentity sender
        fun identity => { identity with currentLine := some store.nextLine }, some store.nextLine)

def takeOpen (opened : Opened) (lineKeys : KeyPair) (sender : IdentityRef) (store : Store) :
    Except Fault (Store × Option LineRef) := do
  let current := currentLineOf store sender
  if !(← opened.authentic) then return (store, none)
  else
    let time ← readNumber (opened.inner.objectForKey "at")
    if olderThanCurrent current time then return (store, none)
    else
      let lineId := opened.inner.objectForKey "line"
      if ← reopensCurrent current lineId time then return (store, none)
      else if replacesCurrent current time then
        takeLine opened lineKeys sender lineId time (closeChannels sender store)
      else takeLine opened lineKeys sender lineId time store

def acceptOpen (opened : Opened) (lineKeys : KeyPair) (store : Store) :
    Except Fault (Store × Option LineRef) := do
  let parts ← partsOf (opened.inner.objectForKey "from")
  match identityFromParts prim.sha256 parts opened.incomingCS store with
  | (looked, none) => return (looked, none)
  | (looked, some sender) =>
      takeOpen opened lineKeys sender (looked.updateIdentity sender fun identity =>
        identity.addCipherSet prim.sha256 opened.incomingCS)

/-- `processOpen:` of the receiver's own cipher set. `lineKeys` is the key pair
a new 3a line info would draw. -/
def processOpen (own : THCipherSet) (lineKeys : KeyPair) (openPacket : THPacket) (store : Store) :
    Except Fault (Store × Option LineRef) := do
  match ← openWith prim own openPacket with
  | none => return (store, none)
  | some opened => acceptOpen prim opened lineKeys store

/-! ## What an open can do -/

/-- The open packet is turned away for its signature, its age or as a repeat. -/
def Rejected (opened : Opened) (current : Option THLine) : Prop :=
  opened.authentic = .ok false ∨
    (opened.authentic = .ok true ∧ ∃ time, readNumber (opened.inner.objectForKey "at") = .ok time ∧
      (olderThanCurrent current time = true ∨
        reopensCurrent current (opened.inner.objectForKey "line") time = .ok true))

/-- The open packet passes every check and its line can take it. -/
def Acceptable (opened : Opened) (current : Option THLine) : Prop :=
  opened.authentic = .ok true ∧ ∃ time,
    readNumber (opened.inner.objectForKey "at") = .ok time ∧
    olderThanCurrent current time = false ∧
    reopensCurrent current (opened.inner.objectForKey "line") time = .ok false ∧
    ∀ line, current = some line → ∃ info,
      setRemoteKey opened.incomingCS.csid opened.remoteKey line.cipherSetInfo = .ok info

theorem takeOpen_rejected_iff (opened : Opened) (lineKeys : KeyPair) (sender : IdentityRef)
    (store after : Store) :
    takeOpen opened lineKeys sender store = .ok (after, none) ↔
      after = store ∧ Rejected opened (currentLineOf store sender) := by
  have noNone : ∀ lineId time reached, takeLine opened lineKeys sender lineId time reached ≠
      .ok (after, none) := by
    intro lineId time reached taken
    unfold takeLine at taken
    split at taken
    · obtain ⟨info, _, same⟩ := (bind_ok_iff _ _ _).mp taken
      cases same
    · cases taken
  unfold takeOpen Rejected
  cases opened.authentic with
  | error fault => simp
  | ok signed =>
      cases signed with
      | false =>
          simp only [ok_bind, Bool.not_false, ↓reduceIte, pure_eq_ok, Except.ok.injEq,
            Prod.mk.injEq, and_true, true_or]
          exact eq_comm
      | true =>
          simp only [ok_bind, Bool.not_true, Bool.false_eq_true, ↓reduceIte, Except.ok.injEq,
            reduceCtorEq, false_or, true_and]
          cases readNumber (opened.inner.objectForKey "at") with
          | error fault => simp
          | ok time =>
              simp only [ok_bind, Except.ok.injEq, exists_eq_left']
              by_cases older : olderThanCurrent (currentLineOf store sender) time = true
              · simp only [older, ↓reduceIte, true_or, and_true, pure_eq_ok, Except.ok.injEq,
                  Prod.mk.injEq]
                exact eq_comm
              · simp only [older, Bool.false_eq_true, ↓reduceIte, false_or]
                cases reopensCurrent (currentLineOf store sender)
                  (opened.inner.objectForKey "line") time with
                | error fault => simp
                | ok again =>
                    cases again with
                    | true =>
                        simp only [ok_bind, ↓reduceIte, and_true, pure_eq_ok, Except.ok.injEq,
                          Prod.mk.injEq]
                        exact eq_comm
                    | false =>
                        simp only [ok_bind, Bool.false_eq_true, ↓reduceIte, Except.ok.injEq,
                          and_false, iff_false]
                        split
                        · exact noNone _ time _
                        · exact noNone _ time _

theorem takeOpen_rejected {opened : Opened} {sender : IdentityRef} {store : Store}
    {current : Option THLine} (lineKeys : KeyPair) (held : currentLineOf store sender = current)
    (rejected : Rejected opened current) :
    takeOpen opened lineKeys sender store = .ok (store, none) :=
  (takeOpen_rejected_iff opened lineKeys sender store store).mpr ⟨rfl, held ▸ rejected⟩

/-- An accepted open leaves the work to `takeLine`, behind all checks. -/
theorem takeOpen_accepted_iff (opened : Opened) (lineKeys : KeyPair) (sender : IdentityRef)
    (store after : Store) (line : LineRef) :
    takeOpen opened lineKeys sender store = .ok (after, some line) ↔
      ∃ time lineId, opened.authentic = .ok true ∧
        readNumber (opened.inner.objectForKey "at") = .ok time ∧
        opened.inner.objectForKey "line" = lineId ∧
        olderThanCurrent (currentLineOf store sender) time = false ∧
        reopensCurrent (currentLineOf store sender) lineId time = .ok false ∧
        takeLine opened lineKeys sender lineId time
          (if replacesCurrent (currentLineOf store sender) time then closeChannels sender store
            else store) = .ok (after, some line) := by
  unfold takeOpen
  cases opened.authentic with
  | error fault => simp
  | ok signed =>
      cases signed with
      | false => simp
      | true =>
          cases readNumber (opened.inner.objectForKey "at") with
          | error fault => simp
          | ok time =>
              by_cases older : olderThanCurrent (currentLineOf store sender) time = true
              · simp [older]
              · cases again : reopensCurrent (currentLineOf store sender)
                  (opened.inner.objectForKey "line") time with
                | error fault => simp [older, again]
                | ok repeated =>
                    cases repeated with
                    | true => simp [older, again]
                    | false =>
                        by_cases newer :
                            replacesCurrent (currentLineOf store sender) time = true <;>
                          simp [older, again, newer]

theorem currentLineOf_closeChannels (store : Store) (sender : IdentityRef) :
    currentLineOf (closeChannels sender store) sender = currentLineOf store sender := by
  simp [currentLineOf, closeChannels, Store.updateIdentity]

/-- Whether a line can be given depends on the class of the current line's info alone. -/
theorem takeLine_gives_iff (opened : Opened) (lineKeys : KeyPair) (sender : IdentityRef)
    (lineId : Option Json) (time : Nat) (store : Store) :
    (∃ after line, takeLine opened lineKeys sender lineId time store = .ok (after, some line)) ↔
      ∀ line, currentLineOf store sender = some line → ∃ info,
        setRemoteKey opened.incomingCS.csid opened.remoteKey line.cipherSetInfo = .ok info := by
  unfold takeLine currentLineOf
  cases current : (store.identities sender).currentLine with
  | none => simp
  | some ref =>
      simp only [Option.map_some, Option.some.injEq, forall_eq']
      cases setRemoteKey opened.incomingCS.csid opened.remoteKey
        (store.lines ref).cipherSetInfo with
      | error fault => simp
      | ok info => simp

theorem takeOpen_gives_iff (opened : Opened) (lineKeys : KeyPair) (sender : IdentityRef)
    (store : Store) :
    (∃ after line, takeOpen opened lineKeys sender store = .ok (after, some line)) ↔
      Acceptable opened (currentLineOf store sender) := by
  constructor
  · rintro ⟨after, line, taken⟩
    obtain ⟨time, lineId, authentic, timed, named, young, new, gives⟩ :=
      (takeOpen_accepted_iff opened lineKeys sender store after line).mp taken
    refine ⟨authentic, time, timed, young, named ▸ new, ?_⟩
    have usable := (takeLine_gives_iff opened lineKeys sender lineId time _).mp ⟨after, line, gives⟩
    split at usable
    · rwa [currentLineOf_closeChannels] at usable
    · exact usable
  · rintro ⟨authentic, time, timed, young, new, usable⟩
    have gives : ∃ after line, takeLine opened lineKeys sender
        (opened.inner.objectForKey "line") time
        (if replacesCurrent (currentLineOf store sender) time then closeChannels sender store
          else store) = .ok (after, some line) := by
      refine (takeLine_gives_iff opened lineKeys sender _ time _).mpr ?_
      split
      · rwa [currentLineOf_closeChannels]
      · exact usable
    obtain ⟨after, line, taken⟩ := gives
    exact ⟨after, line, (takeOpen_accepted_iff opened lineKeys sender store after line).mpr
      ⟨time, _, authentic, timed, rfl, young, new, taken⟩⟩

/-- The lookup has just set the key, so adding it again changes nothing. -/
theorem addCipherSet_again (store : Store) (parts : Option Parts) (cipherSet : THCipherSet)
    (sender : IdentityRef) (looked : Store)
    (given : identityFromParts prim.sha256 parts cipherSet store = (looked, some sender)) :
    looked.updateIdentity sender
      (fun identity => identity.addCipherSet prim.sha256 cipherSet) = looked := by
  have keyed : (looked.identities sender).cipherParts =
      .single cipherSet.csid.identifier cipherSet := by
    cases found : store.identityCache.lookup (hashnameForParts prim.sha256 parts) with
    | some ref =>
        rw [identityFromParts_known prim.sha256 cipherSet found] at given
        cases given
        simp [THIdentity.setKeys]
    | none =>
        by_cases belongs : keyMatches prim.sha256 parts cipherSet
        · rw [identityFromParts_new prim.sha256 found belongs] at given
          cases given
          simp [Store.cacheIdentity, Store.allocIdentity, THIdentity.setKeys]
        · rw [identityFromParts_foreign prim.sha256 found belongs] at given
          cases given
  have same : (looked.identities sender).addCipherSet prim.sha256 cipherSet =
      looked.identities sender := by
    simp [THIdentity.addCipherSet, keyed]
  simp [Store.updateIdentity, same]

/-- The key an open packet is read with is the key of its inner packet. -/
def KeyOfInner (csid : CipherSetId) (opened : Opened) : Prop :=
  opened.incomingCS.csid = csid ∧
    hexString (opened.incomingCS.fingerprint prim.sha256) =
      hexString (prim.sha256 (opened.inner.body.getD []))

theorem readInner3a_key {secretKey pubLineKey : Data} {openPacket inner : THPacket}
    {opened : Opened}
    (read : readInner3a prim secretKey pubLineKey openPacket inner = some opened) :
    KeyOfInner prim .cs3a opened := by
  unfold readInner3a at read
  dsimp only at read
  split at read
  · cases read
  · rename_i checked
    split at read
    · cases read
    · cases read
      exact ⟨rfl, by simpa [sameFingerprint] using checked⟩

theorem readInner2a_key {remoteECCKey sigData : Data} {openPacket inner : THPacket}
    {opened : Opened}
    (read : readInner2a prim remoteECCKey sigData openPacket inner = .ok (some opened)) :
    KeyOfInner prim .cs2a opened := by
  unfold readInner2a at read
  dsimp only at read
  split at read
  · cases read
  · split at read
    · cases read
    · rename_i checked
      cases read
      exact ⟨rfl, by simpa [sameFingerprint] using checked⟩

/-- A 3a open that is read was read down to its inner packet. -/
theorem open3a_reads {secretKey : Data} {openPacket : THPacket} {opened : Opened}
    (read : open3a prim secretKey openPacket = .ok (some opened)) :
    ∃ pubLineKey inner, readInner3a prim secretKey pubLineKey openPacket inner = some opened := by
  unfold open3a at read
  obtain ⟨pubLineKey, _, read⟩ := (bind_ok_iff _ _ _).mp read
  obtain ⟨encryptedLength, _, read⟩ := (bind_ok_iff _ _ _).mp read
  obtain ⟨encryptedPacket, _, read⟩ := (bind_ok_iff _ _ _).mp read
  obtain ⟨_, _, read⟩ := (bind_ok_iff _ _ _).mp read
  split at read
  · cases read
  · obtain ⟨packet, _, read⟩ := (bind_ok_iff _ _ _).mp read
    split at read
    · cases read
    · exact ⟨pubLineKey, _, Except.ok.inj read⟩

/-- So was a 2a open, against the signature cut from it. -/
theorem open2a_reads {secretKey : Data} {openPacket : THPacket} {opened : Opened}
    (read : open2a prim secretKey openPacket = .ok (some opened)) :
    ∃ remoteECCKey sigData inner,
      subdataWithRange (openPacket.body.getD []) 257 260 = .ok sigData ∧
      readInner2a prim remoteECCKey sigData openPacket inner = .ok (some opened) := by
  unfold open2a at read
  obtain ⟨lineKey, _, read⟩ := (bind_ok_iff _ _ _).mp read
  split at read
  · cases read
  · obtain ⟨sigData, cut, read⟩ := (bind_ok_iff _ _ _).mp read
    obtain ⟨behindSig, _, read⟩ := (bind_ok_iff _ _ _).mp read
    obtain ⟨innerLength, _, read⟩ := (bind_ok_iff _ _ _).mp read
    obtain ⟨encryptedInner, _, read⟩ := (bind_ok_iff _ _ _).mp read
    obtain ⟨macStart, _, read⟩ := (bind_ok_iff _ _ _).mp read
    obtain ⟨mac, _, read⟩ := (bind_ok_iff _ _ _).mp read
    split at read
    · cases read
    · obtain ⟨packet, _, read⟩ := (bind_ok_iff _ _ _).mp read
      split at read
      · cases read
      · exact ⟨_, sigData, _, cut, read⟩

theorem openWith_key {own : THCipherSet} {openPacket : THPacket} {opened : Opened}
    (read : openWith prim own openPacket = .ok (some opened)) :
    KeyOfInner prim own.csid opened := by
  unfold openWith at read
  split at read
  · rename_i class2a
    rw [class2a]
    obtain ⟨_, _, _, _, inner⟩ := open2a_reads prim read
    exact readInner2a_key prim inner
  · rename_i class3a
    rw [class3a]
    obtain ⟨_, _, inner⟩ := open3a_reads prim read
    exact readInner3a_key prim inner

end Telehash.CipherSet
