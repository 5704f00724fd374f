import Telehash.CipherSet

/-!
The part of THSwitch.m, THLine.m and the cipher sets that opens and closes
lines. What one call draws at random or reads off the clock is an argument. An
open is passed around as its receiver reads it, with ideal cryptography. The
channels that wait for a line are not part of this module: releasing them
changes neither the ids nor the keys of a line.
-/

namespace Telehash.Switch
open Association Foundation Packet Identity CipherSet

/-- A pending job for an identity; `ref` tells it from every other. Jobs for
channels are kept elsewhere. -/
structure THPendingJob where
  ref : Nat
  pending : IdentityRef
  deriving DecidableEq

structure THSwitch where
  store : Store
  -- of the switch's own identity
  hashname : String
  cipherParts : CipherParts
  openLines : Dictionary String LineRef
  pendingJobs : List THPendingJob
  nextJob : Nat
  cachedOpen : LineRef → Option Opened
  sent : List Opened

/-- What generating one open may draw: a key pair, a line id, the time. -/
structure Fresh where
  lineKeys : KeyPair
  lineId : String
  time : Nat

namespace THSwitch

def updateStore (switch : THSwitch) (change : Store → Store) : THSwitch :=
  { switch with store := change switch.store }

def toIdentity (switch : THSwitch) (line : LineRef) : IdentityRef :=
  (switch.store.lines line).toIdentity

end THSwitch

/-- The ids both identities have, from the highest down. -/
def sharedIds (own theirs : CipherParts) : List String :=
  (own.keys.filter fun id => (theirs.lookup id).isSome).insertionSort (· ≥ ·)

def chooseCipherSet (own theirs : CipherParts) : Option THCipherSet :=
  match sharedIds own theirs with
  | [] => none
  | id :: _ => own.lookup id

/-- Of a side that is known by one set alone, that set is the one shared. -/
theorem head_sharedIds_single {own : CipherParts} {id : String} {held : THCipherSet}
    (found : own.lookup id = some held) (cipherSet : THCipherSet) :
    (sharedIds own (.single id cipherSet)).head? = some id := by
  have listed : id ∈ own.keys := List.mem_map.mpr ⟨_, (lookup_some_iff _ _ _).mp found, rfl⟩
  have only : ∀ other ∈ sharedIds own (.single id cipherSet), other = id := by
    intro other member
    have kept := (List.mem_filter.mp ((List.mem_insertionSort _).mp member)).2
    by_contra different
    simp [Dictionary.single, Dictionary.lookup, find, Ne.symm different] at kept
  have shared : id ∈ sharedIds own (.single id cipherSet) :=
    (List.mem_insertionSort _).mpr (List.mem_filter.mpr ⟨listed, by simp⟩)
  cases ids : sharedIds own (.single id cipherSet) with
  | nil => rw [ids] at shared; cases shared
  | cons first rest =>
      rw [ids] at only
      rw [List.head?_cons, only first List.mem_cons_self]

theorem chooseCipherSet_single {own : CipherParts} {id : String} {held : THCipherSet}
    (found : own.lookup id = some held) (cipherSet : THCipherSet) :
    chooseCipherSet own (.single id cipherSet) = some held := by
  have first := head_sharedIds_single found cipherSet
  unfold chooseCipherSet
  cases ids : sharedIds own (.single id cipherSet) with
  | nil => rw [ids] at first; cases first
  | cons head rest =>
      rw [ids] at first
      cases first
      exact found

def startLineInfo (csid : CipherSetId) (cipherSet : Option THCipherSet) (lineKeys : KeyPair) :
    THCipherSetLineInfo :=
  match csid with
  | .cs2a => .info2a ⟨cipherSet, none, none, none, none⟩
  | .cs3a => .info3a ⟨cipherSet, lineKeys.publicKey, lineKeys.secretKey, none, none, none⟩

/-- The line info with its ephemeral keys in place. -/
def withLineKeys (csid : CipherSetId) (lineKeys : KeyPair) :
    THCipherSetLineInfo → Except Fault (THCipherSetLineInfo × KeyPair)
  | .info2a info =>
      if csid = .cs2a then
        let ecdh := info.ecdh.getD lineKeys
        .ok (.info2a { info with ecdh := some ecdh }, ecdh)
      else .error .unrecognizedSelector
  | .info3a info =>
      if csid = .cs3a then .ok (.info3a info, ⟨info.publicLineKey, info.secretLineKey⟩)
      else .error .unrecognizedSelector

/-- The ephemeral key as the receiver takes it from an open: 2a sends it
without its first byte and puts the byte back. -/
def receivedKey (csid : CipherSetId) (publicKey : Data) : Data :=
  match csid with
  | .cs2a => 4 :: publicKey.drop 1
  | .cs3a => publicKey

section Crypto
variable (prim : Primitives)

def openJson (cipherParts : CipherParts) (recipient lineId : String) (time : Nat) :
    JsonDictionary :=
  let from_ := (fingerprintParts prim.sha256 cipherParts).entries.map fun entry =>
    (entry.1, Json.string entry.2)
  (((Dictionary.single "to" (.string recipient)).insert "at" (.number time)).insert "from"
    (.object from_)).insert "line" (.string lineId)

/-- The open `own` builds for a line, as read on the other side. -/
def openFor (own : THCipherSet) (cipherParts : CipherParts) (recipient lineId : String)
    (time : Nat) (publicLineKey : Data) : Opened where
  inner := ⟨some (openJson prim cipherParts recipient lineId time), some own.publicKey, 0, none⟩
  incomingCS := ⟨own.csid, own.publicKey, none⟩
  remoteKey := receivedKey own.csid publicLineKey
  authentic := .ok true

/-- `generateOpen:` of the switch and of the cipher set it picks. -/
def generateOpen (switch : THSwitch) (fresh : Fresh) (toLine : LineRef) :
    Except Fault (THSwitch × Option Opened) :=
  let line := switch.store.lines toLine
  let toIdentity := switch.store.identities line.toIdentity
  match chooseCipherSet switch.cipherParts toIdentity.cipherParts with
  | none => .ok (switch, none)
  | some own => do
      let remote := toIdentity.cipherParts.lookup own.csid.identifier
      let started := line.cipherSetInfo.getD (startLineInfo own.csid remote fresh.lineKeys)
      let (info, keys) ← withLineKeys own.csid fresh.lineKeys started
      let lineId := line.inLineId.getD fresh.lineId
      let prepared := switch.updateStore fun store => store.updateLine toLine fun held =>
        { held with cipherSetInfo := some info, inLineId := some lineId }
      return (prepared, some (openFor prim own switch.cipherParts
        (toIdentity.hashname prim.sha256) lineId fresh.time keys.publicKey))

/-- An open goes out on each path and on the relay, if there is any. -/
def transmit (switch : THSwitch) (line : LineRef) (opened : Opened) : THSwitch :=
  let toIdentity := switch.store.identities (switch.toIdentity line)
  if toIdentity.availablePaths ≠ [] ∨ toIdentity.relay.isSome then
    { switch with sent := switch.sent ++ [opened] }
  else switch

def sendOpen (switch : THSwitch) (fresh : Fresh) (line : LineRef) : Except Fault THSwitch :=
  match switch.cachedOpen line with
  | some opened => .ok (transmit switch line opened)
  | none => do
      let (generated, opened) ← generateOpen prim switch fresh line
      let cached := { generated with cachedOpen := Function.update switch.cachedOpen line opened }
      match opened with
      | none => return cached
      | some opened => return transmit cached line opened

def lineIdBytes (lineId : Option Json) : Except Fault Data := do
  match ← readText lineId with
  | none => .error .nullPointer
  | some text => .ok (readBytes prim.beyond 16 (dataFromHexString text))

def keyOf (sharedSecret first second : Data) : Data := prim.sha256 (sharedSecret ++ first ++ second)

/-- `finalizeLineKeys:` of 2a, with the ephemeral keys it may have to make. -/
def finalize2a (lineKeys : KeyPair) (line : THLine) (info : THCipherSetLineInfo2a) :
    Except Fault THLine :=
  let ecdh := info.ecdh.getD lineKeys
  match info.remoteECCKey with
  | none => .ok { line with cipherSetInfo := some (.info2a { info with ecdh := some ecdh }) }
  | some remoteECCKey => do
      let sharedSecret := (prim.ecdhAgree remoteECCKey ecdh.secretKey).getD []
      let out ← lineIdBytes prim line.outLineId
      let in_ ← lineIdBytes prim (line.inLineId.map Json.string)
      return { line with cipherSetInfo := some (.info2a { info with
        ecdh := some ecdh
        decryptorKey := some (keyOf prim sharedSecret out in_)
        encryptorKey := some (keyOf prim sharedSecret in_ out) }) }

def finalize3a (line : THLine) (info : THCipherSetLineInfo3a) : Except Fault THLine :=
  match info.remoteLineKey with
  | none => .error .nullPointer
  | some remoteLineKey => do
      let agreedKey := prim.beforenm remoteLineKey info.secretLineKey
      let out ← lineIdBytes prim line.outLineId
      let in_ ← lineIdBytes prim (line.inLineId.map Json.string)
      return { line with cipherSetInfo := some (.info3a { info with
        decryptorKey := some (keyOf prim agreedKey out in_)
        encryptorKey := some (keyOf prim agreedKey in_ out) }) }

/-- The cipher set stored in the line info picks the method. -/
def finalizeLineKeys (lineKeys : KeyPair) (line : THLine) : Except Fault THLine :=
  match line.cipherSetInfo with
  | none => .ok line
  | some (.info2a info) =>
      match info.cipherSet with
      | none => .ok line
      | some cipherSet =>
          if cipherSet.csid = .cs2a then finalize2a prim lineKeys line info
          else .error .unrecognizedSelector
  | some (.info3a info) =>
      match info.cipherSet with
      | none => .ok line
      | some cipherSet =>
          if cipherSet.csid = .cs3a then finalize3a prim line info
          else .error .unrecognizedSelector

/-- `openLine` of THLine, then the line's entry in `openLines`. -/
def openAndRegister (switch : THSwitch) (lineKeys : KeyPair) (ref : LineRef) :
    Except Fault THSwitch := do
  let line := switch.store.lines ref
  let peer := (switch.store.identities line.toIdentity).hashname prim.sha256
  let finalized ← finalizeLineKeys prim lineKeys
    { line with nextChannelId := if peer < switch.hashname then 1 else 2 }
  match line.inLineId with
  | none => .error .nilArgument
  | some lineId =>
      let opened := switch.updateStore fun store =>
        store.updateLine ref fun _ => { finalized with isOpen := true }
      return { opened with openLines := switch.openLines.insert lineId ref }

def samePeer (switch : THSwitch) (one two : IdentityRef) : Bool :=
  (switch.store.identities one).hashname prim.sha256 =
    (switch.store.identities two).hashname prim.sha256

/-- A job for the hashname of the identity is queued. -/
def pending (switch : THSwitch) (toIdentity : IdentityRef) : Bool :=
  switch.pendingJobs.any fun job => samePeer prim switch job.pending toIdentity

def usePath (returnPath : Option THPath) (identity : THIdentity) : THIdentity :=
  match returnPath with
  | none => identity
  | some path =>
      { identity with
        availablePaths :=
          if path ∈ identity.availablePaths then identity.availablePaths
          else identity.availablePaths ++ [path]
        activePath := some path }

def forgetLine (switch : THSwitch) (line : LineRef) : THSwitch :=
  match (switch.store.lines line).inLineId with
  | none => switch
  | some lineId => { switch with openLines := switch.openLines.erase lineId }

/-- `processOpen:` of the switch behind the cipher set's: the first pending job
for the identity decides whether this open answers one of ours. -/
def completeOpen (switch : THSwitch) (fresh : Fresh) (returnPath : Option THPath)
    (newLine : LineRef) : Except Fault THSwitch :=
  let sender := switch.toIdentity newLine
  let pathed := switch.updateStore fun store => store.updateIdentity sender (usePath returnPath)
  let cleared := forgetLine pathed newLine
  let job := cleared.pendingJobs.find? fun job => samePeer prim cleared job.pending sender
  let unqueued := { cleared with
    pendingJobs := cleared.pendingJobs.eraseP fun job => samePeer prim cleared job.pending sender }
  match job, (unqueued.store.lines newLine).inLineId with
  | some job, some _ =>
      match (unqueued.store.identities job.pending).currentLine with
      | none => .error .nilArgument
      | some current => openAndRegister prim unqueued fresh.lineKeys current
  | _, _ => do
      let answered ← sendOpen prim unqueued fresh newLine
      openAndRegister prim answered fresh.lineKeys newLine

/-- An open as read by one of the switch's cipher sets. -/
def receiveOpen (switch : THSwitch) (fresh : Fresh) (returnPath : Option THPath)
    (opened : Opened) : Except Fault THSwitch := do
  match ← acceptOpen prim opened fresh.lineKeys switch.store with
  | (store, none) => return { switch with store := store }
  | (store, some newLine) =>
      completeOpen prim { switch with store := store } fresh returnPath newLine

def processOpen (switch : THSwitch) (fresh : Fresh) (incomingPacket : THPacket) :
    Except Fault THSwitch := do
  let csid ← subdataWithRange (incomingPacket.body.getD []) 0 1
  match switch.cipherParts.lookup (hexString csid) with
  | none => return switch
  | some cipherSet =>
      match ← openWith prim cipherSet incomingPacket with
      | none => return switch
      | some opened => receiveOpen prim switch fresh incomingPacket.returnPath opened

/-- The last part of `openLine:` for an identity known by its vias: the relay
channel that could be opened, if any, is an argument. -/
def tryVias (switch : THSwitch) (toIdentity : IdentityRef) (peerChannel : Option ChannelRef) :
    THSwitch :=
  let identity := switch.store.identities toIdentity
  if identity.vias ≠ [] ∧ identity.relay.isNone then
    switch.updateStore fun store => store.updateIdentity toIdentity fun identity =>
      { identity with
        vias := []
        relay := peerChannel.map fun channel => ⟨some channel⟩ }
  else switch

def withCurrentLine (switch : THSwitch) (toIdentity : IdentityRef) : THSwitch × LineRef :=
  match (switch.store.identities toIdentity).currentLine with
  | some line => (switch, line)
  | none =>
      (switch.updateStore fun store =>
        (store.allocLine (.new toIdentity)).updateIdentity toIdentity fun identity =>
          { identity with currentLine := some store.nextLine },
        switch.store.nextLine)

def openLine (switch : THSwitch) (fresh : Fresh) (peerChannel : Option ChannelRef)
    (toIdentity : IdentityRef) : Except Fault THSwitch :=
  let identity := switch.store.identities toIdentity
  if identity.currentLine.isSome ∧
      (identity.activePath.isSome ∨ (identity.relay.bind THRelay.peerChannel).isSome) then
    .ok switch
  else do
    let queued :=
      if switch.pendingJobs.any fun job => samePeer prim switch job.pending toIdentity then switch
      else
        { switch with
          pendingJobs := switch.pendingJobs ++ [⟨switch.nextJob, toIdentity⟩]
          nextJob := switch.nextJob + 1 }
    if identity.availablePaths ≠ [] ∧ 0 < identity.cipherParts.count then
      let (lined, line) := withCurrentLine queued toIdentity
      let opening ← sendOpen prim lined fresh line
      return tryVias opening toIdentity peerChannel
    else return tryVias queued toIdentity peerChannel

end Crypto

/-- The timer `openLine:` leaves for two seconds later, with the job it made. -/
def lineTimeout (switch : THSwitch) (job : Nat) (toIdentity : IdentityRef) : THSwitch :=
  let currentLine := (switch.store.identities toIdentity).currentLine
  if (currentLine.bind fun line => (switch.store.lines line).inLineId).isSome then switch
  else
    let dropped := switch.updateStore fun store => store.updateIdentity toIdentity fun identity =>
      { identity with currentLine := none }
    { dropped with
      pendingJobs := switch.pendingJobs.eraseP fun held => held.ref = job }

def closeLine (switch : THSwitch) (line : LineRef) : THSwitch :=
  let forgotten := forgetLine
    { switch with cachedOpen := Function.update switch.cachedOpen line none } line
  if (switch.store.identities (switch.toIdentity line)).currentLine = some line then
    forgotten.updateStore fun store => store.updateIdentity (switch.toIdentity line) fun identity =>
      { identity with currentLine := none }
  else forgotten

end Telehash.Switch
