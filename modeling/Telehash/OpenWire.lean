import Telehash.LineEnd
import Telehash.OpenReplay
import Telehash.PacketCodec

/-!
`generateOpen:from:` of THCipherSet2a.m and THCipherSet3a.m down to the bytes,
and how `processOpen:` of the receiver reads them. What is drawn at random or
read off the clock is an argument; the functions that encrypt and sign are
parameters next to those that decrypt and verify.
-/

namespace Telehash.OpenWire
open Association Foundation Packet PacketCodec Identity CipherSet Switch LineInfo
open OpenAuthentication (acceptOpen_known acceptOpen_new processOpen_opened)
open OpenReplay (currentOf)

structure Sealing where
  rsaEncrypt : (seed publicKey plainText : Data) → Data
  rsaSign : (secretKey message : Data) → Data
  -- the cipher text and the mac
  gcmEncrypt : (macLength : Nat) → (key plainText : Data) → Data × Data
  secretboxEasy : (key message : Data) → Data
  onetimeauth : (message key : Data) → Data

/-- What generating one open may draw. -/
structure Draws where
  lineKeys : KeyPair
  lineId : String
  rsaSeed : Data
  seconds : Int

/-- The NSInteger of whole seconds, times 1000, as the NSUInteger `at`. -/
def openTime (seconds : Int) : Nat := (seconds * 1000 % uintModulus).toNat

-- `numberWithInteger:` takes an NSInteger of the same bits.
def integerNumber (value : Nat) : Json :=
  .number (if value < 2 ^ 63 then value else value - uintModulus)

variable (prim : Primitives) (sealing : Sealing)

def fingerprintsJson (cipherParts : CipherParts) : Json :=
  .object ((fingerprintParts prim.sha256 cipherParts).entries.map fun entry =>
    (entry.1, Json.string entry.2))

def innerJson (cipherParts : CipherParts) (recipient lineId : String) (time : Nat) :
    JsonDictionary :=
  (((Dictionary.single "to" (.string recipient)).insert "at" (integerNumber time)).insert "from"
    (fingerprintsJson prim cipherParts)).insert "line" (.string lineId)

def innerPacket (own : THCipherSet) (cipherParts : CipherParts) (recipient lineId : String)
    (time : Nat) : THPacket :=
  { initWithJson (some (innerJson prim cipherParts recipient lineId time)) with
    body := some own.publicKey }

/-- The fields of a 2a open behind the csid byte. -/
structure Fields2a where
  lineKey : Data
  sigText : Data
  sigMac : Data
  cipherText : Data
  mac : Data

def Fields2a.body (fields : Fields2a) : Data :=
  [0x2a] ++ fields.lineKey ++ fields.sigText ++ fields.sigMac ++ fields.cipherText ++ fields.mac

/-- The fields of a 3a open behind the csid byte. -/
structure Fields3a where
  authData : Data
  publicLineKey : Data
  encryptedInner : Data

def Fields3a.body (fields : Fields3a) : Data :=
  [0x3a] ++ fields.authData ++ fields.publicLineKey ++ fields.encryptedInner

-- Without the set of the recipient there is nothing to encrypt the key with.
def seal2a (own : THCipherSet) (remote : Option THCipherSet) (seed : Data) (ecdh : KeyPair)
    (lineId : String) (inner : Data) : Fields2a :=
  -- the prefix byte of the key is left out
  let rawKey := ecdh.publicKey.drop 1
  let lineKey := remote.map fun set => sealing.rsaEncrypt seed set.publicKey rawKey
  let (cipherText, mac) := sealing.gcmEncrypt macBytes (prim.sha256 rawKey) inner
  let bodySig := sealing.rsaSign (own.secretKey.getD []) (cipherText ++ mac)
  let (sigText, sigMac) :=
    sealing.gcmEncrypt 4 (prim.sha256 (rawKey ++ dataFromHexString lineId)) bodySig
  ⟨lineKey.getD [], sigText, sigMac, cipherText, mac⟩

-- The authenticated bytes are those behind the mac: a key of 32 bytes and the box.
def seal3a (own remote : THCipherSet) (lineKeys : KeyPair) (inner : Data) : Fields3a :=
  let encryptedInner :=
    sealing.secretboxEasy (prim.beforenm remote.publicKey lineKeys.secretKey) inner
  let authKey := prim.beforenm remote.publicKey (own.secretKey.getD [])
  ⟨sealing.onetimeauth (lineKeys.publicKey ++ encryptedInner) authKey, lineKeys.publicKey,
    encryptedInner⟩

def openBody (own : THCipherSet) (remote : Option THCipherSet) (seed : Data) (keys : KeyPair)
    (lineId : String) (inner : Data) : Except Fault Data :=
  match own.csid, remote with
  | .cs2a, remote => .ok (seal2a prim sealing own remote seed keys lineId inner).body
  | .cs3a, some remote => .ok (seal3a prim sealing own remote keys inner).body
  | .cs3a, none => .error .nullPointer

/-- `generateOpen:from:`. The set of the recipient is read out of the line info. -/
def generateOpen (own : THCipherSet) (cipherParts : CipherParts) (toIdentity : THIdentity)
    (draws : Draws) (line : THLine) : Except Fault (THLine × THPacket) := do
  let started := line.cipherSetInfo.getD
    (startLineInfo own.csid (toIdentity.cipherParts.lookup own.csid.identifier) draws.lineKeys)
  let (info, keys) ← withLineKeys own.csid draws.lineKeys started
  let lineId := line.inLineId.getD draws.lineId
  let inner := encode prim.serialization (innerPacket prim own cipherParts
    (toIdentity.hashname prim.sha256) lineId (openTime draws.seconds))
  let body ← openBody prim sealing own (cipherSetOf info) draws.rsaSeed keys lineId inner
  return ({ line with cipherSetInfo := some info, inLineId := some lineId },
    { THPacket.new with
      body := some body
      jsonLength := 1 })

/-! ## The time of an open -/

theorem openTime_lt (seconds : Int) : openTime seconds < uintModulus := by
  have bounded := Int.emod_lt_of_pos (seconds * 1000) (b := (uintModulus : Int)) (by decide)
  have nonneg := Int.emod_nonneg (seconds * 1000) (b := (uintModulus : Int)) (by decide)
  unfold openTime
  omega

theorem readNumber_integerNumber (value : Nat) (small : value < uintModulus) :
    readNumber (some (integerNumber value)) = .ok value := by
  simp only [integerNumber, readNumber, Json.unsignedIntegerValue, Except.ok.injEq]
  have modulus : uintModulus = 2 ^ 64 := rfl
  rw [modulus] at small ⊢
  split <;> omega

/-! ## The layout of an open -/

/-- Every range `processOpen:` takes of a 2a open is a field as it was written. -/
structure Carves2a (fields : Fields2a) : Prop where
  csid : subdataWithRange fields.body 0 1 = .ok [0x2a]
  lineKey : subdataWithRange fields.body 1 256 = .ok fields.lineKey
  sigData : subdataWithRange fields.body 257 260 = .ok (fields.sigText ++ fields.sigMac)
  cipherLength : lengthSub fields.body.length 517 >>= (fun behindSig =>
    lengthSub behindSig macBytes) = .ok fields.cipherText.length
  cipherText : subdataWithRange fields.body 517 fields.cipherText.length = .ok fields.cipherText
  macStart : lengthSub fields.body.length macBytes = .ok (517 + fields.cipherText.length)
  mac : subdataWithRange fields.body (517 + fields.cipherText.length) macBytes = .ok fields.mac
  signed : fields.body.drop 517 = fields.cipherText ++ fields.mac
  sigMac : subdataWithRange (fields.sigText ++ fields.sigMac)
    ((fields.sigText ++ fields.sigMac).length - 4) 4 = .ok fields.sigMac
  sigText : subdataWithRange (fields.sigText ++ fields.sigMac) 0 256 = .ok fields.sigText

/-- Every range `processOpen:` takes of a 3a open is a field as it was written. -/
structure Carves3a (fields : Fields3a) : Prop where
  csid : subdataWithRange fields.body 0 1 = .ok [0x3a]
  publicLineKey : subdataWithRange fields.body (macBytes + 1) publicKeyBytes =
    .ok fields.publicLineKey
  encryptedLength : lengthSub fields.body.length packetStart = .ok fields.encryptedInner.length
  encryptedInner : subdataWithRange fields.body packetStart fields.encryptedInner.length =
    .ok fields.encryptedInner
  authData : (fields.body.drop 1).take macBytes = fields.authData
  authenticated : fields.body.drop (macBytes + 1) = fields.publicLineKey ++ fields.encryptedInner

theorem carves2a {fields : Fields2a} (lineKey : fields.lineKey.length = 256)
    (sigText : fields.sigText.length = 256) (sigMac : fields.sigMac.length = 4)
    (mac : fields.mac.length = macBytes) : Carves2a fields := by
  have sixteen : macBytes = 16 := rfl
  have flat : fields.body = [0x2a] ++ (fields.lineKey ++ (fields.sigText ++ (fields.sigMac ++
      (fields.cipherText ++ fields.mac)))) := by
    simp only [Fields2a.body, List.append_assoc]
  have size : fields.body.length = 517 + fields.cipherText.length + 16 := by
    rw [flat]
    simp only [List.length_append, List.length_singleton]
    omega
  have behind : fields.body = ([0x2a] ++ fields.lineKey ++ fields.sigText ++ fields.sigMac) ++
      (fields.cipherText ++ fields.mac) := by
    simp only [flat, List.append_assoc]
  have place : ([0x2a] ++ fields.lineKey ++ fields.sigText ++ fields.sigMac).length = 517 := by
    simp only [List.length_append, List.length_singleton]
    omega
  constructor
  · rw [flat]
    exact subdata_first rfl
  · rw [flat]
    exact subdata_field rfl lineKey
  · have around : fields.body = ([0x2a] ++ fields.lineKey) ++ ((fields.sigText ++ fields.sigMac) ++
        (fields.cipherText ++ fields.mac)) := by
      simp only [flat, List.append_assoc]
    rw [around]
    apply subdata_field
    · simp only [List.length_append, List.length_singleton]
      omega
    · rw [List.length_append]
      omega
  · rw [lengthSub_inside _ _ (by omega), ok_bind, lengthSub_inside _ _ (by omega)]
    exact congrArg Except.ok (by omega)
  · rw [behind]
    exact subdata_field place rfl
  · rw [lengthSub_inside _ _ (by omega)]
    exact congrArg Except.ok (by omega)
  · have last : fields.body = ([0x2a] ++ fields.lineKey ++ fields.sigText ++ fields.sigMac ++
        fields.cipherText) ++ (fields.mac ++ []) := by
      simp only [flat, List.append_assoc, List.append_nil]
    rw [last]
    apply subdata_field
    · rw [List.length_append, place]
    · exact mac
  · rw [behind, ← place, List.drop_left]
  · have ends : fields.sigText ++ fields.sigMac = fields.sigText ++ (fields.sigMac ++ []) := by
      rw [List.append_nil]
    have start : (fields.sigText ++ fields.sigMac).length - 4 = 256 := by
      rw [List.length_append]
      omega
    rw [start, ends]
    exact subdata_field sigText sigMac
  · exact subdata_first sigText

theorem carves3a {fields : Fields3a} (authData : fields.authData.length = macBytes)
    (publicLineKey : fields.publicLineKey.length = publicKeyBytes) : Carves3a fields := by
  have sixteen : macBytes = 16 := rfl
  have thirtyTwo : publicKeyBytes = 32 := rfl
  have start : packetStart = 49 := rfl
  have flat : fields.body = [0x3a] ++ (fields.authData ++ (fields.publicLineKey ++
      (fields.encryptedInner ++ []))) := by
    simp only [Fields3a.body, List.append_assoc, List.append_nil]
  have keyed : fields.body = ([0x3a] ++ fields.authData) ++ (fields.publicLineKey ++
      fields.encryptedInner) := by
    simp only [Fields3a.body, List.append_assoc]
  have boxed : fields.body = ([0x3a] ++ fields.authData ++ fields.publicLineKey) ++
      (fields.encryptedInner ++ []) := by
    simp only [Fields3a.body, List.append_nil]
  have keyPlace : ([0x3a] ++ fields.authData).length = macBytes + 1 := by
    simp only [List.length_append, List.length_singleton]
    omega
  have boxPlace : ([0x3a] ++ fields.authData ++ fields.publicLineKey).length = packetStart := by
    simp only [List.length_append, List.length_singleton]
    omega
  constructor
  · rw [flat]
    exact subdata_first rfl
  · rw [keyed]
    exact subdata_field keyPlace publicLineKey
  · rw [boxed, List.length_append, boxPlace, List.append_nil, lengthSub_inside _ _ (by omega)]
    exact congrArg Except.ok (by omega)
  · rw [boxed]
    exact subdata_field boxPlace rfl
  · rw [flat, List.singleton_append, List.drop_succ_cons, List.drop_zero, ← authData,
      List.take_left]
  · rw [keyed, ← keyPlace, List.drop_left]

/-! ## Ideal cryptography -/

/-- RSA, GCM and ECDH that invert each other, with the lengths of a key of 2048
bits. OAEP takes up to 214 bytes of plain text. -/
structure Ideal2a (identityKeys lineKeys : KeyPair → Prop) : Prop where
  decrypts : ∀ keys, identityKeys keys → ∀ seed plainText, plainText.length ≤ 214 →
    prim.rsaDecrypt keys.secretKey (sealing.rsaEncrypt seed keys.publicKey plainText) =
      some plainText
  block : ∀ keys, identityKeys keys → ∀ seed plainText, plainText.length ≤ 214 →
    (sealing.rsaEncrypt seed keys.publicKey plainText).length = 256
  loads : ∀ keys, identityKeys keys → prim.rsaLoad keys.publicKey = some keys.publicKey
  verifies : ∀ keys, identityKeys keys → ∀ message,
    prim.rsaVerify keys.publicKey message (sealing.rsaSign keys.secretKey message) = true
  signature : ∀ keys, identityKeys keys → ∀ message,
    (sealing.rsaSign keys.secretKey message).length = 256
  opens : ∀ macLength, macLength = 4 ∨ macLength = macBytes → ∀ key plainText,
    prim.gcmDecrypt key (sealing.gcmEncrypt macLength key plainText).1
      (sealing.gcmEncrypt macLength key plainText).2 = some plainText
  text : ∀ macLength key plainText,
    (sealing.gcmEncrypt macLength key plainText).1.length = plainText.length
  mac : ∀ macLength, macLength = 4 ∨ macLength = macBytes → ∀ key plainText,
    (sealing.gcmEncrypt macLength key plainText).2.length = macLength
  point : ∀ keys, lineKeys keys → keys.publicKey.head? = some 4 ∧ keys.publicKey.length = 65

/-- A box, a secret box and an authenticator that invert each other. -/
structure Ideal3a (identityKeys lineKeys : KeyPair → Prop) : Prop where
  identityKey : ∀ keys, identityKeys keys → keys.publicKey.length = publicKeyBytes
  lineKey : ∀ keys, lineKeys keys → keys.publicKey.length = publicKeyBytes
  agrees : ∀ one two, identityKeys one ∨ lineKeys one → identityKeys two →
    prim.beforenm one.publicKey two.secretKey = prim.beforenm two.publicKey one.secretKey
  opens : ∀ key message, prim.secretboxOpen key (sealing.secretboxEasy key message) = some message
  boxed : ∀ key message, (sealing.secretboxEasy key message).length = macBytes + message.length
  verifies : ∀ message key,
    prim.onetimeauthVerify (sealing.onetimeauth message key) message key = true
  authData : ∀ message key, (sealing.onetimeauth message key).length = macBytes

def Ideal (csid : CipherSetId) (identityKeys lineKeys : KeyPair → Prop) : Prop :=
  match csid with
  | .cs2a => Ideal2a prim sealing identityKeys lineKeys
  | .cs3a => Ideal3a prim sealing identityKeys lineKeys

/-- The set has both keys of a pair. -/
def Complete (identityKeys : KeyPair → Prop) (cipherSet : THCipherSet) : Prop :=
  ∃ secretKey, cipherSet.secretKey = some secretKey ∧
    identityKeys ⟨cipherSet.publicKey, secretKey⟩

/-! ## An open as its receiver reads it -/

def readOpen (own : THCipherSet) (json : JsonDictionary) (publicKey : Data)
    (returnPath : Option THPath) : Opened where
  inner := ⟨some json, some own.publicKey, (prim.serialization.dataWithJSONObject json).length,
    returnPath⟩
  incomingCS := ⟨own.csid, own.publicKey, none⟩
  remoteKey := receivedKey own.csid publicKey
  authentic := .ok true

section Reading
variable {prim sealing} {identityKeys lineKeys : KeyPair → Prop}
  {own recipient remote : THCipherSet} {keys : KeyPair} {json : JsonDictionary}
  {lineId : String} {received : THPacket}

theorem packetData_inner (written : Written prim.serialization json) (filled : json.count ≠ 0)
    (publicKey : Data) :
    packetData prim.serialization prim.stack
        (encode prim.serialization { initWithJson (some json) with body := some publicKey }) =
      .ok (some ⟨some json, some publicKey,
        (prim.serialization.dataWithJSONObject json).length, none⟩) := by
  rw [encode_json prim.serialization prim.stack _ json rfl rfl filled written.fits written.parses]
  simp [readBack, filled]

/-- The key of the sender comes back from the bytes of the inner packet. -/
theorem readInner3a_written (class_ : own.csid = .cs3a)
    (sized : own.publicKey.length = publicKeyBytes) {secretKey : Data} {length : Nat}
    (verified : prim.onetimeauthVerify (((received.body.getD []).drop 1).take macBytes)
      ((received.body.getD []).drop (macBytes + 1))
      (prim.beforenm own.publicKey secretKey) = true) :
    readInner3a prim secretKey keys.publicKey received
        ⟨some json, some own.publicKey, length, received.returnPath⟩ =
      some ⟨⟨some json, some own.publicKey, length, received.returnPath⟩,
        ⟨own.csid, own.publicKey, none⟩, keys.publicKey, .ok true⟩ := by
  have whole : readBytes prim.beyond publicKeyBytes own.publicKey = own.publicKey := by
    rw [readBytes, ← sized, List.take_left]
  have same : sameFingerprint prim ⟨.cs3a, own.publicKey, none⟩
      ⟨some json, some own.publicKey, length, received.returnPath⟩ = true := by
    simp [sameFingerprint, THCipherSet.fingerprint]
  simp only [readInner3a, Option.getD_some, whole, same, verified, not_true_eq_false, ↓reduceIte,
    class_]

theorem carves_seal3a (ideal : Ideal3a prim sealing identityKeys lineKeys)
    (drawn : lineKeys keys) (inner : Data) :
    Carves3a (seal3a prim sealing own remote keys inner) := by
  apply carves3a
  · exact ideal.authData _ _
  · exact ideal.lineKey keys drawn

theorem open3a_sealed (ideal : Ideal3a prim sealing identityKeys lineKeys)
    (class_ : own.csid = .cs3a) (sender : Complete identityKeys own) {secretKey inner : Data}
    (theirs : identityKeys ⟨recipient.publicKey, secretKey⟩)
    (known : remote.publicKey = recipient.publicKey) (drawn : lineKeys keys)
    (read : packetData prim.serialization prim.stack inner = .ok (some ⟨some json,
      some own.publicKey, (prim.serialization.dataWithJSONObject json).length, none⟩))
    (body : received.body = some (seal3a prim sealing own remote keys inner).body) :
    open3a prim secretKey received =
      .ok (some (readOpen prim own json keys.publicKey received.returnPath)) := by
  obtain ⟨ownSecret, held, ours⟩ := sender
  have carves : Carves3a (seal3a prim sealing own remote keys inner) :=
    carves_seal3a ideal drawn inner
  generalize sealed : seal3a prim sealing own remote keys inner = fields at body carves
  have lineKey : fields.publicLineKey = keys.publicKey := by rw [← sealed]; rfl
  have box : fields.encryptedInner =
      sealing.secretboxEasy (prim.beforenm recipient.publicKey keys.secretKey) inner := by
    rw [← sealed, ← known]; rfl
  have authData : fields.authData = sealing.onetimeauth
      (fields.publicLineKey ++ fields.encryptedInner)
      (prim.beforenm recipient.publicKey ownSecret) := by
    rw [← sealed, ← known]
    simp only [seal3a, held, Option.getD_some]
  -- the recipient derives both keys from its own secret key
  have boxKey := ideal.agrees keys ⟨recipient.publicKey, secretKey⟩ (Or.inr drawn) theirs
  have authKey := ideal.agrees ⟨own.publicKey, ownSecret⟩ ⟨recipient.publicKey, secretKey⟩
    (Or.inl ours) theirs
  have opened : prim.secretboxOpen (prim.beforenm keys.publicKey secretKey)
      fields.encryptedInner = some inner := by
    rw [box, boxKey, ideal.opens]
  have long : macBytes ≤ fields.encryptedInner.length := by
    rw [box, ideal.boxed]
    exact Nat.le_add_right _ _
  have verified : prim.onetimeauthVerify (((received.body.getD []).drop 1).take macBytes)
      ((received.body.getD []).drop (macBytes + 1))
      (prim.beforenm own.publicKey secretKey) = true := by
    rw [body, Option.getD_some, carves.authData, carves.authenticated, authData]
    simp only [authKey]
    exact ideal.verifies _ _
  have readInner : readInner3a prim secretKey keys.publicKey received
      ⟨some json, some own.publicKey, (prim.serialization.dataWithJSONObject json).length,
        received.returnPath⟩ = some _ :=
    readInner3a_written class_ (ideal.identityKey _ ours) verified
  simp only [open3a, body, Option.getD_some, carves.publicLineKey, carves.encryptedLength,
    carves.encryptedInner, ok_bind, lengthSub_inside _ _ long, lineKey, opened, read, readInner,
    pure_eq_ok, readOpen, receivedKey, class_]

theorem carves_seal2a (ideal : Ideal2a prim sealing identityKeys lineKeys)
    (sender : Complete identityKeys own) {secretKey : Data}
    (theirs : identityKeys ⟨recipient.publicKey, secretKey⟩)
    (known : remote.publicKey = recipient.publicKey) (drawn : lineKeys keys) (seed inner : Data) :
    Carves2a (seal2a prim sealing own (some remote) seed keys lineId inner) := by
  obtain ⟨ownSecret, held, ours⟩ := sender
  have short : (keys.publicKey.drop 1).length ≤ 214 := by
    rw [List.length_drop, (ideal.point keys drawn).2]
    decide
  apply carves2a
  · simp only [seal2a, Option.map_some, Option.getD_some, known]
    exact ideal.block _ theirs _ _ short
  · simp only [seal2a, held, Option.getD_some, ideal.text]
    exact ideal.signature _ ours _
  · exact ideal.mac 4 (Or.inl rfl) _ _
  · exact ideal.mac macBytes (Or.inr rfl) _ _

/-- The signature of the sender is read with the key and the line id of the inner packet. -/
theorem verify2a_written (ideal : Ideal2a prim sealing identityKeys lineKeys)
    {ownSecret rawKey : Data} {fields : Fields2a} {inner : THPacket}
    (ours : identityKeys ⟨own.publicKey, ownSecret⟩) (carves : Carves2a fields)
    (body : received.body = some fields.body)
    (named : readText (inner.objectForKey "line") = .ok (some lineId))
    (signed : (fields.sigText, fields.sigMac) = sealing.gcmEncrypt 4
      (prim.sha256 (rawKey ++ dataFromHexString lineId))
      (sealing.rsaSign ownSecret (fields.cipherText ++ fields.mac))) :
    verify2a prim rawKey (fields.sigText ++ fields.sigMac) received inner own.publicKey =
      .ok true := by
  have opened := ideal.opens 4 (Or.inl rfl) (prim.sha256 (rawKey ++ dataFromHexString lineId))
    (sealing.rsaSign ownSecret (fields.cipherText ++ fields.mac))
  rw [← signed] at opened
  simp only [verify2a, named, ok_bind, Option.map_some, Option.getD_some, carves.sigMac,
    carves.sigText, opened, body, carves.signed, pure_eq_ok]
  exact congrArg Except.ok (ideal.verifies _ ours _)

theorem open2a_sealed (ideal : Ideal2a prim sealing identityKeys lineKeys)
    (class_ : own.csid = .cs2a) (sender : Complete identityKeys own) {secretKey seed inner : Data}
    (theirs : identityKeys ⟨recipient.publicKey, secretKey⟩)
    (known : remote.publicKey = recipient.publicKey) (drawn : lineKeys keys)
    (named : json.lookup "line" = some (.string lineId))
    (read : packetData prim.serialization prim.stack inner = .ok (some ⟨some json,
      some own.publicKey, (prim.serialization.dataWithJSONObject json).length, none⟩))
    (body : received.body =
      some (seal2a prim sealing own (some remote) seed keys lineId inner).body) :
    open2a prim secretKey received =
      .ok (some (readOpen prim own json keys.publicKey received.returnPath)) := by
  have carves : Carves2a (seal2a prim sealing own (some remote) seed keys lineId inner) :=
    carves_seal2a ideal sender theirs known drawn seed inner
  obtain ⟨ownSecret, held, ours⟩ := sender
  generalize sealed : seal2a prim sealing own (some remote) seed keys lineId inner = fields
    at body carves
  have decrypted : prim.rsaDecrypt secretKey fields.lineKey = some (keys.publicKey.drop 1) := by
    have short : (keys.publicKey.drop 1).length ≤ 214 := by
      rw [List.length_drop, (ideal.point keys drawn).2]
      decide
    rw [← sealed]
    simp only [seal2a, Option.map_some, Option.getD_some, known]
    exact ideal.decrypts _ theirs _ _ short
  have opened : prim.gcmDecrypt (prim.sha256 (keys.publicKey.drop 1)) fields.cipherText
      fields.mac = some inner := by
    rw [← sealed]
    exact ideal.opens macBytes (Or.inr rfl) _ _
  have signed : (fields.sigText, fields.sigMac) = sealing.gcmEncrypt 4
      (prim.sha256 (keys.publicKey.drop 1 ++ dataFromHexString lineId))
      (sealing.rsaSign ownSecret (fields.cipherText ++ fields.mac)) := by
    rw [← sealed]
    simp only [seal2a, held, Option.getD_some]
  have same : sameFingerprint prim ⟨.cs2a, own.publicKey, none⟩ ⟨some json, some own.publicKey,
      (prim.serialization.dataWithJSONObject json).length, received.returnPath⟩ = true := by
    simp [sameFingerprint, THCipherSet.fingerprint]
  have line : readText (THPacket.objectForKey ⟨some json, some own.publicKey,
      (prim.serialization.dataWithJSONObject json).length, received.returnPath⟩ "line") =
      .ok (some lineId) := by
    simp only [THPacket.objectForKey, Option.bind_some, named, readText]
  have verified := verify2a_written ideal ours carves body line signed
  obtain ⟨behindSig, first, second⟩ := (bind_ok_iff _ _ _).mp carves.cipherLength
  simp only [open2a, body, Option.getD_some, carves.lineKey, ok_bind, decrypted, carves.sigData,
    first, second, carves.cipherText, carves.macStart, carves.mac, opened, read, readInner2a,
    ideal.loads _ ours, same, verified, not_true_eq_false, ↓reduceIte, readOpen, receivedKey,
    class_]

/-- A recipient of the sender's class reads the open for what it was made of. -/
theorem openWith_sealed (ideal : Ideal prim sealing own.csid identityKeys lineKeys)
    (class_ : recipient.csid = own.csid) (sender : Complete identityKeys own)
    (receiver : Complete identityKeys recipient)
    (known : remote.publicKey = recipient.publicKey) (drawn : lineKeys keys)
    {seed inner body : Data}
    (named : json.lookup "line" = some (.string lineId))
    (read : packetData prim.serialization prim.stack inner = .ok (some ⟨some json,
      some own.publicKey, (prim.serialization.dataWithJSONObject json).length, none⟩))
    (sealed : openBody prim sealing own (some remote) seed keys lineId inner = .ok body)
    (arrives : received.body = some body) :
    openWith prim recipient received =
      .ok (some (readOpen prim own json keys.publicKey received.returnPath)) := by
  obtain ⟨secretKey, held, theirs⟩ := receiver
  cases own_class : own.csid with
  | cs2a =>
      rw [own_class] at ideal
      simp only [openBody, own_class, Except.ok.injEq] at sealed
      simp only [openWith, class_, own_class, held, Option.getD_some]
      exact open2a_sealed ideal own_class sender theirs known drawn named read
        (arrives.trans (congrArg some sealed.symm))
  | cs3a =>
      rw [own_class] at ideal
      simp only [openBody, own_class, Except.ok.injEq] at sealed
      simp only [openWith, class_, own_class, held, Option.getD_some]
      exact open3a_sealed ideal own_class sender theirs known drawn read
        (arrives.trans (congrArg some sealed.symm))

end Reading

/-! ## The handshake -/

theorem lookup_innerJson (cipherParts : CipherParts) (recipient lineId : String) (time : Nat) :
    let json := innerJson prim cipherParts recipient lineId time
    json.lookup "at" = some (integerNumber time) ∧
      json.lookup "from" = some (fingerprintsJson prim cipherParts) ∧
      json.lookup "line" = some (.string lineId) := by
  simp [innerJson, lookup_insert]

theorem innerJson_filled (cipherParts : CipherParts) (recipient lineId : String) (time : Nat) :
    (innerJson prim cipherParts recipient lineId time).count ≠ 0 := by
  intro bare
  have named := (lookup_innerJson prim cipherParts recipient lineId time).2.2
  rw [(count_zero_iff _).mp bare] at named
  cases named

/-- The three fields `processOpen:` reads are those written. -/
theorem readOpen_fields (own : THCipherSet) (cipherParts : CipherParts)
    (recipient lineId : String) {time : Nat} (small : time < uintModulus) (publicKey : Data)
    (returnPath : Option THPath) :
    let inner := (readOpen prim own (innerJson prim cipherParts recipient lineId time) publicKey
      returnPath).inner
    readNumber (inner.objectForKey "at") = .ok time ∧
      partsOf (inner.objectForKey "from") =
        .ok (some (fingerprintParts prim.sha256 cipherParts)) ∧
      inner.objectForKey "line" = some (.string lineId) := by
  obtain ⟨timed, from_, named⟩ := lookup_innerJson prim cipherParts recipient lineId time
  simp only [readOpen, THPacket.objectForKey, Option.bind_some, timed, from_, named, and_true]
  exact ⟨readNumber_integerNumber time small, partsOf_written _⟩

/-- Below 2^63 milliseconds the bytes say what the switches pass each other as an open. -/
theorem sameOpen_readOpen (own : THCipherSet) (cipherParts : CipherParts)
    (recipient lineId : String) {time : Nat} (small : time < 2 ^ 63) (publicKey : Data)
    (returnPath : Option THPath) :
    LineEnd.SameOpen
      (readOpen prim own (innerJson prim cipherParts recipient lineId time) publicKey returnPath)
      (openFor prim own cipherParts recipient lineId time publicKey) := by
  constructor
  · simp only [readOpen, openFor, innerJson, openJson, integerNumber, small, ↓reduceIte,
      fingerprintsJson]
  · rfl
  · rfl

/-- A new line with what the open says, as the current one of its sender. -/
def firstLine (opened : Opened) (lineKeys : KeyPair) (sender : IdentityRef)
    (lineId : Option Json) (time : Nat) (store : Store) : Store :=
  let info := newLineInfo opened.incomingCS opened.remoteKey lineKeys
  let newLine := { THLine.new sender with cipherSetInfo := some info }
  (store.allocLine (handleOpen lineId time newLine)).updateIdentity sender fun identity =>
    { identity with currentLine := some store.nextLine }

section Arrival
variable {opened : Opened} (lineKeys : KeyPair) {sender : IdentityRef} {store : Store} {time : Nat}
  {lineId : Option Json}

/-- Without a current line nothing stands against an authentic open. -/
theorem takeOpen_first (unlined : (store.identities sender).currentLine = none)
    (authentic : opened.authentic = .ok true)
    (timed : readNumber (opened.inner.objectForKey "at") = .ok time)
    (named : opened.inner.objectForKey "line" = lineId) :
    takeOpen opened lineKeys sender store =
      .ok (firstLine opened lineKeys sender lineId time store, some store.nextLine) := by
  simp only [takeOpen, currentLineOf, unlined, Option.map_none, authentic, ok_bind, timed,
    named, olderThanCurrent, reopensCurrent, replacesCurrent, takeLine, Bool.not_true,
    Bool.false_eq_true, ↓reduceIte, pure_eq_ok]
  rfl

theorem remoteKey_firstLine (opened : Opened) :
    remoteKey ((firstLine opened lineKeys sender lineId time store).lines store.nextLine) =
      some opened.remoteKey := by
  rw [firstLine, lines_updateIdentity, lines_allocLine_same]
  simp only [remoteKey, handleOpen, Option.bind_some, newLineInfo]
  split <;> rfl

theorem hashname_firstLine {name : String}
    (named : (store.identities sender).hashnameCache = some name) :
    let after := firstLine opened lineKeys sender lineId time store
    (after.identities (after.lines store.nextLine).toIdentity).hashname prim.sha256 = name := by
  simp [firstLine, handleOpen, THLine.new, Store.allocLine, THIdentity.hashname, named]

/-- An authentic open of a sender without a current line gives a new line of
the sender, who answers to the hash of the parts. -/
theorem acceptOpen_first {parts : Option Parts} (keyed : Keyed store)
    (unlined : currentOf (hashnameForParts prim.sha256 parts) store = none)
    (read : partsOf (opened.inner.objectForKey "from") = .ok parts)
    (belongs : keyMatches prim.sha256 parts opened.incomingCS)
    (authentic : opened.authentic = .ok true)
    (timed : readNumber (opened.inner.objectForKey "at") = .ok time)
    (named : opened.inner.objectForKey "line" = lineId) :
    ∃ looked sender,
      acceptOpen prim opened lineKeys store =
        .ok (firstLine opened lineKeys sender lineId time looked, some looked.nextLine) ∧
      (looked.identities sender).hashnameCache = some (hashnameForParts prim.sha256 parts) := by
  cases found : store.identityCache.lookup (hashnameForParts prim.sha256 parts) with
  | some sender =>
      refine ⟨store.updateIdentity sender (THIdentity.setKeys parts opened.incomingCS), sender,
        ?_, ?_⟩
      · rw [acceptOpen_known prim lineKeys read found]
        apply takeOpen_first lineKeys _ authentic timed named
        rw [identities_updateIdentity_same]
        simpa [currentOf, found, currentLineOf, THIdentity.setKeys] using unlined
      · rw [identities_updateIdentity_same]
        exact (keyed _ _ found).2
  | none =>
      refine ⟨store.cacheIdentity (hashnameForParts prim.sha256 parts)
        (THIdentity.init.setKeys parts opened.incomingCS), store.nextIdentity, ?_, ?_⟩
      · rw [acceptOpen_new prim lineKeys read found belongs]
        apply takeOpen_first lineKeys _ authentic timed named
        simp [Store.cacheIdentity, THIdentity.setKeys, THIdentity.init]
      · simp [Store.cacheIdentity]

end Arrival

/-- The body is what was sealed, and `processOpen:` takes its fields out of it. -/
def Carves (own remote : THCipherSet) (seed : Data) (keys : KeyPair) (lineId : String)
    (inner body : Data) : Prop :=
  match own.csid with
  | .cs2a =>
      let fields := seal2a prim sealing own (some remote) seed keys lineId inner
      body = fields.body ∧ Carves2a fields
  | .cs3a =>
      let fields := seal3a prim sealing own remote keys inner
      body = fields.body ∧ Carves3a fields

/-- A sender with its cipher set, a recipient whose key it holds, a fresh line
between them and what is drawn for it. -/
structure Meeting (identityKeys lineKeys : KeyPair → Prop) (own recipient remote : THCipherSet)
    (cipherParts : CipherParts) (toIdentity : THIdentity) (draws : Draws) (line : THLine) :
    Prop where
  class_ : recipient.csid = own.csid
  sender : Complete identityKeys own
  receiver : Complete identityKeys recipient
  held : cipherParts.lookup own.csid.identifier = some own
  known : toIdentity.cipherParts.lookup own.csid.identifier = some remote
  sameKey : remote.publicKey = recipient.publicKey
  drawn : lineKeys draws.lineKeys
  fresh : line.cipherSetInfo = none
  written : Written prim.serialization (innerJson prim cipherParts
    (toIdentity.hashname prim.sha256) (line.inLineId.getD draws.lineId) (openTime draws.seconds))

section Handshake
variable {prim sealing} {identityKeys lineKeys : KeyPair → Prop}
  {own recipient remote : THCipherSet} {cipherParts : CipherParts} {toIdentity : THIdentity}
  {draws : Draws} {line : THLine}

theorem openBody_carves (ideal : Ideal prim sealing own.csid identityKeys lineKeys)
    (meeting : Meeting prim identityKeys lineKeys own recipient remote cipherParts toIdentity
      draws line) (lineId : String) (inner : Data) :
    ∃ body, openBody prim sealing own (some remote) draws.rsaSeed draws.lineKeys lineId inner =
        .ok body ∧
      Carves prim sealing own remote draws.rsaSeed draws.lineKeys lineId inner body := by
  obtain ⟨secretKey, _, theirs⟩ := meeting.receiver
  unfold openBody Carves
  cases class_ : own.csid with
  | cs2a =>
      rw [class_] at ideal
      exact ⟨_, rfl, rfl, carves_seal2a ideal meeting.sender theirs meeting.sameKey meeting.drawn
        _ _⟩
  | cs3a =>
      rw [class_] at ideal
      exact ⟨_, rfl, rfl, carves_seal3a ideal meeting.drawn _⟩

/-- A fresh line takes the key pair drawn for it and the set of the recipient. -/
theorem generateOpen_fresh (fresh : line.cipherSetInfo = none)
    (known : toIdentity.cipherParts.lookup own.csid.identifier = some remote) {body : Data}
    (sealed : openBody prim sealing own (some remote) draws.rsaSeed draws.lineKeys
      (line.inLineId.getD draws.lineId) (encode prim.serialization (innerPacket prim own cipherParts
        (toIdentity.hashname prim.sha256) (line.inLineId.getD draws.lineId)
        (openTime draws.seconds))) = .ok body) :
    ∃ prepared, generateOpen prim sealing own cipherParts toIdentity draws line =
        .ok (prepared, { THPacket.new with body := some body, jsonLength := 1 }) ∧
      prepared.inLineId = some (line.inLineId.getD draws.lineId) ∧
      ownKeys prepared = some draws.lineKeys := by
  cases class_ : own.csid with
  | cs2a =>
      rw [class_] at known
      simp only [generateOpen, fresh, class_, known, Option.getD_none, startLineInfo, withLineKeys,
        ↓reduceIte, ok_bind, cipherSetOf, sealed, pure_eq_ok]
      exact ⟨_, rfl, rfl, rfl⟩
  | cs3a =>
      rw [class_] at known
      simp only [generateOpen, fresh, class_, known, Option.getD_none, startLineInfo, withLineKeys,
        ↓reduceIte, ok_bind, cipherSetOf, sealed, pure_eq_ok]
      exact ⟨_, rfl, rfl, rfl⟩

variable (prim) in
/-- The recipient's line, given for the open of a line. -/
structure Answers (sent : THLine) (openAt : Except Fault Nat) (sender : String) (after : Store)
    (given : LineRef) : Prop where
  lineId : (after.lines given).outLineId = sent.inLineId.map .string ∧ sent.inLineId.isSome
  createdAt : openAt = .ok (after.lines given).createdAt
  remoteKey : remoteKey (after.lines given) = (ownKeys sent).map KeyPair.publicKey ∧
    (ownKeys sent).isSome
  sender : (after.identities (after.lines given).toIdentity).hashname prim.sha256 = sender

/-- An ephemeral key is sent so that the receiver has it back whole. -/
theorem receivedKey_drawn (ideal : Ideal prim sealing own.csid identityKeys lineKeys)
    {keys : KeyPair} (drawn : lineKeys keys) :
    receivedKey own.csid keys.publicKey = keys.publicKey := by
  cases class_ : own.csid with
  | cs2a =>
      rw [class_] at ideal
      obtain ⟨first, _⟩ := Ideal2a.point ideal keys drawn
      cases whole : keys.publicKey with
      | nil =>
          rw [whole] at first
          cases first
      | cons byte rest =>
          rw [whole] at first
          cases first
          rfl
  | cs3a => rfl

/-- The open of a fresh line is laid out as the recipient reads it, and a
recipient without a current line for the sender gives a line that says what
the sender's does. -/
theorem open_round_trip (ideal : Ideal prim sealing own.csid identityKeys lineKeys)
    (meeting : Meeting prim identityKeys lineKeys own recipient remote cipherParts toIdentity
      draws line) :
    let lineId := line.inLineId.getD draws.lineId
    let packet := innerPacket prim own cipherParts (toIdentity.hashname prim.sha256) lineId
      (openTime draws.seconds)
    let sender := hashnameForParts prim.sha256 (some (fingerprintParts prim.sha256 cipherParts))
    ∃ prepared openPacket body,
      generateOpen prim sealing own cipherParts toIdentity draws line =
        .ok (prepared, openPacket) ∧
      openPacket.body = some body ∧
      Carves prim sealing own remote draws.rsaSeed draws.lineKeys lineId
        (encode prim.serialization packet) body ∧
      ∀ received keys store, received.body = some body → Keyed store →
        currentOf sender store = none →
        ∃ after given, processOpen prim recipient keys received store = .ok (after, some given) ∧
          Answers prim prepared (readNumber (packet.objectForKey "at")) sender after given := by
  intro lineId packet sender
  obtain ⟨body, sealed, carves⟩ := openBody_carves ideal meeting lineId
    (encode prim.serialization packet)
  obtain ⟨prepared, generated, named, kept⟩ := generateOpen_fresh meeting.fresh meeting.known sealed
  refine ⟨prepared, _, body, generated, rfl, carves, ?_⟩
  intro received keys store arrives keyed unlined
  have read := packetData_inner meeting.written (innerJson_filled prim _ _ _ _) own.publicKey
  have told := (lookup_innerJson prim cipherParts (toIdentity.hashname prim.sha256) lineId
    (openTime draws.seconds)).2.2
  have opened := openWith_sealed ideal meeting.class_ meeting.sender meeting.receiver
    meeting.sameKey meeting.drawn told read sealed arrives
  have fingerprint := lookup_fingerprintParts prim.sha256 meeting.held
  have belongs : keyMatches prim.sha256 (some (fingerprintParts prim.sha256 cipherParts))
      ⟨own.csid, own.publicKey, none⟩ := fingerprint
  obtain ⟨timed, from_, named_⟩ := readOpen_fields prim own cipherParts
    (toIdentity.hashname prim.sha256) lineId (openTime_lt draws.seconds) draws.lineKeys.publicKey
    received.returnPath
  obtain ⟨looked, ref, accepted, cached⟩ :=
    acceptOpen_first prim keys keyed unlined from_ belongs rfl timed named_
  rw [processOpen_opened prim opened keys store]
  refine ⟨_, _, accepted, ?_⟩
  constructor
  · rw [firstLine, lines_updateIdentity, lines_allocLine_same, named]
    exact ⟨rfl, rfl⟩
  · rw [firstLine, lines_updateIdentity, lines_allocLine_same]
    exact timed
  · rw [remoteKey_firstLine, kept]
    exact ⟨congrArg some (receivedKey_drawn ideal meeting.drawn), rfl⟩
  · exact hashname_firstLine prim keys cached

end Handshake

/-! A platform on which the two keys of a pair are one, a shared key is their
sum and a tag is the start of the key it is made with. -/

def tagOf (key : Data) : Data := (key ++ List.replicate macBytes 0).take macBytes

def senderKey : Data := List.replicate publicKeyBytes 1

def sentJson : JsonDictionary :=
  (((Dictionary.single "to" (.string "peer")).insert "at" (.number 5000)).insert "from"
    (.object [("3a", .string (hexString senderKey))])).insert "line" (.string "a0b1")

def sentText : Data :=
  utf8 "\x7b\"to\":\"peer\",\"at\":5000,\"from\":\x7b\"3a\":\"" ++ utf8 (hexString senderKey) ++
    utf8 "\"\x7d,\"line\":\"a0b1\"\x7d"

def summingPrimitives : Primitives where
  serialization :=
    { dataWithJSONObject := fun _ => sentText
      JSONObjectWithData := fun text =>
        if text = sentText then some (.dictionary sentJson) else none }
  stack := ⟨0, 0⟩
  beyond := []
  sha256 := id
  beforenm := List.zipWith (· + ·)
  secretboxOpen key cipherText :=
    if cipherText.take macBytes = tagOf key then some (cipherText.drop macBytes) else none
  onetimeauthVerify mac _ key := mac = tagOf key
  rsaLoad _ := none
  rsaDecrypt _ _ := none
  rsaVerify _ _ _ := false
  gcmDecrypt _ _ _ := none
  ecdhAgree _ _ := none

def summingSealing : Sealing where
  rsaEncrypt _ _ _ := []
  rsaSign _ _ := []
  gcmEncrypt _ _ _ := ([], [])
  secretboxEasy key message := tagOf key ++ message
  onetimeauth _ key := tagOf key

def onePair (keys : KeyPair) : Prop :=
  keys.publicKey.length = publicKeyBytes ∧ keys.secretKey = keys.publicKey

theorem length_tagOf (key : Data) : (tagOf key).length = macBytes := by
  simp [tagOf]

theorem summing_ideal : Ideal3a summingPrimitives summingSealing onePair onePair where
  identityKey _ drawn := drawn.1
  lineKey _ drawn := drawn.1
  agrees one two sameOne sameTwo := by
    have own : one.secretKey = one.publicKey := sameOne.elim And.right And.right
    rw [own, sameTwo.2]
    exact List.zipWith_comm_of_comm UInt8.add_comm
  opens key message := by
    have tag : (tagOf key ++ message).take macBytes = tagOf key := by
      rw [← length_tagOf key, List.take_left]
    have rest : (tagOf key ++ message).drop macBytes = message := by
      rw [← length_tagOf key, List.drop_left]
    simp only [summingPrimitives, summingSealing, tag, rest, ↓reduceIte]
  boxed key message := by
    simp only [summingSealing, List.length_append, length_tagOf]
  verifies message key := by
    simp only [summingPrimitives, summingSealing, decide_true]
  authData message key := length_tagOf key

def sendingSet : THCipherSet := ⟨.cs3a, senderKey, some senderKey⟩

def receivingSet : THCipherSet :=
  ⟨.cs3a, List.replicate publicKeyBytes 2, some (List.replicate publicKeyBytes 2)⟩

def receivingIdentity : THIdentity :=
  { THIdentity.init with
    hashnameCache := some "peer"
    cipherParts := .single "3a" { receivingSet with secretKey := none } }

def sendingDraws : Draws :=
  ⟨⟨List.replicate publicKeyBytes 3, List.replicate publicKeyBytes 3⟩, "a0b1", [], 5⟩

theorem summing_meeting : Meeting summingPrimitives onePair onePair sendingSet receivingSet
    { receivingSet with secretKey := none } (.single "3a" sendingSet) receivingIdentity sendingDraws
    (.new 0) where
  class_ := rfl
  sender := ⟨senderKey, rfl, rfl, rfl⟩
  receiver := ⟨_, rfl, rfl, rfl⟩
  held := rfl
  known := rfl
  sameKey := rfl
  drawn := ⟨rfl, rfl⟩
  fresh := rfl
  written := ⟨by decide, rfl⟩

/-- An open of a known key arrives at a switch that has heard of nobody. -/
theorem open_round_trip_first :
    ∃ received after given,
      processOpen summingPrimitives receivingSet sendingDraws.lineKeys received .start =
        .ok (after, some given) ∧
        (after.lines given).outLineId = some (.string "a0b1") := by
  have ideal : Ideal summingPrimitives summingSealing sendingSet.csid onePair onePair :=
    summing_ideal
  obtain ⟨prepared, openPacket, body, generated, sealed, _, arrives⟩ :=
    open_round_trip ideal summing_meeting
  obtain ⟨after, given, processed, answers⟩ :=
    arrives openPacket sendingDraws.lineKeys .start sealed keyed_start rfl
  have named : prepared.inLineId = some "a0b1" := by
    cases generated
    rfl
  exact ⟨openPacket, after, given, processed,
    answers.lineId.1.trans (congrArg (Option.map Json.string) named)⟩

end Telehash.OpenWire
