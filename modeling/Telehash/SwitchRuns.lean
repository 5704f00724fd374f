import Telehash.LineInfo
import Telehash.OpenAuthentication
import Telehash.Runs

/-!
Runs of a switch among identities of all three sources: the cache by parts, the
cache by hashname, and seeds built outside the cache. Lines are opened, answered,
closed, reset and asked for through a connect in any order.
-/

namespace Telehash.SwitchRuns
open Association Foundation Packet Identity CipherSet Switch LineInfo THSwitch Runs

section Operations
variable (prim : Primitives)

def addPath (path : THPath) (identity : THIdentity) : THIdentity :=
  if path ∈ identity.availablePaths then identity
  else { identity with availablePaths := identity.availablePaths ++ [path] }

/-- `initWithPublicKey:` of a 3a set. Without data the key stays zero. -/
def set3a (publicKey : Option Data) : THCipherSet where
  csid := .cs3a
  publicKey :=
    match publicKey with
    | none => List.replicate publicKeyBytes 0
    | some keyData => readBytes prim.beyond publicKeyBytes keyData
  secretKey := none

def set2a (publicKey : Data) : Except Fault THCipherSet :=
  match prim.rsaLoad publicKey with
  | none => .error .keyNotLoadable
  | some key => .ok ⟨.cs2a, key, none⟩

structure SeedEntry where
  keys2a : Data
  keys3a : Option Data
  parts : Option Parts
  paths : List THPath

/-- The identity `loadSeeds:` makes of an entry. Opening a line to it reads its
hashname, which fills the cache of that. -/
def seedIdentity (entry : SeedEntry) : Except Fault THIdentity := do
  let cs ← set2a prim entry.keys2a
  let keyed := THIdentity.init.addCipherSet prim.sha256 cs
  let keyed := match entry.keys3a with
    | none => keyed
    | some keyData => keyed.addCipherSet prim.sha256 (set3a prim (some keyData))
  let seed := entry.paths.foldl (fun identity path => addPath path identity)
    { keyed with parts := entry.parts }
  return { seed with hashnameCache := some (hashnameForParts prim.sha256 entry.parts) }

def loadSeed (switch : THSwitch) (fresh : Fresh) (peerChannel : Option ChannelRef)
    (entry : SeedEntry) : Except Fault THSwitch := do
  let seed ← seedIdentity prim entry
  openLine prim (switch.updateStore fun store => store.allocIdentity seed) fresh peerChannel
    switch.store.nextIdentity

def sendOpenTo (switch : THSwitch) (fresh : Fresh) (identity : IdentityRef) :
    Except Fault THSwitch :=
  match (switch.store.identities identity).currentLine with
  | none => .ok switch
  | some line => sendOpen prim switch fresh line

def resetIdentity (switch : THSwitch) (identity : IdentityRef) : THSwitch :=
  let closed := match (switch.store.identities identity).currentLine with
    | none => switch
    | some line => closeLine switch line
  closed.updateStore (Identity.reset identity)

/-! A connect request: the packet on the line of a relaying identity. -/

/-- The key of the request is of its highest id, if that is one of the two. -/
def connectSet (fromParts : Option Parts) (body : Option Data) :
    Except Fault (Option THCipherSet) :=
  match (fromParts.bind fun parts => (sortedKeys parts).getLast?) with
  | none => .ok none
  | some highestPart =>
      if highestPart = "3a" then .ok (some (set3a prim body))
      else if highestPart = "2a" then do return some (← set2a prim (body.getD []))
      else .ok none

-- Without a key a new identity is not made, and a known one cannot take it.
def connectIdentity (fromParts : Option Parts) (cs : Option THCipherSet) (store : Store) :
    Except Fault (Store × Option IdentityRef) :=
  match cs with
  | some cs => .ok (identityFromParts prim.sha256 fromParts cs store)
  | none =>
      match store.identityCache.lookup (hashnameForParts prim.sha256 fromParts) with
      | none => .ok (store, none)
      | some _ => .error .nilArgument

/-- A line the peer may still have is taken for dead, with all ways to it. -/
def forsake (switch : THSwitch) (peerIdentity : IdentityRef) : THSwitch :=
  match (switch.store.identities peerIdentity).currentLine with
  | none => switch
  | some line =>
      ((closeLine switch line).updateStore (closeChannels peerIdentity)).updateStore fun store =>
        store.updateIdentity peerIdentity fun identity =>
          { identity with availablePaths := [], vias := [], activePath := none, relay := none }

structure Connect where
  innerPacket : THPacket
  -- the paths made of its `paths`, with the bridging one behind them
  paths : List THPath
  relayIdentity : IdentityRef
  peerChannel : ChannelRef

/-- The channel of the connect is opened to the relaying identity, which may
have lost its current line. -/
def openRelayChannel (switch : THSwitch) (fresh : Fresh) (peerChannel : Option ChannelRef)
    (relayIdentity : IdentityRef) : Except Fault THSwitch :=
  match (switch.store.identities relayIdentity).currentLine with
  | some _ => .ok switch
  | none => openLine prim switch fresh peerChannel relayIdentity

def connect (switch : THSwitch) (relayFresh fresh : Fresh) (relayPeer : Option ChannelRef)
    (request : Connect) : Except Fault THSwitch := do
  let fromParts ← partsOf (request.innerPacket.objectForKey "from")
  let cs ← connectSet prim fromParts request.innerPacket.body
  match ← connectIdentity prim fromParts cs switch.store with
  | (store, none) => return { switch with store := store }
  | (store, some peerIdentity) =>
      let forsaken := forsake { switch with store := store } peerIdentity
      let reached := forsaken.updateStore fun store =>
        store.updateIdentity peerIdentity fun identity =>
          request.paths.foldl (fun identity path => addPath path identity) identity
      let relayed ← openRelayChannel prim reached relayFresh relayPeer request.relayIdentity
      let related := relayed.updateStore fun store =>
        store.updateIdentity peerIdentity fun identity =>
          { identity with relay := some ⟨some request.peerChannel⟩ }
      openLine prim related fresh none peerIdentity

/-- The ways to an identity and its channels, which packets and timers change. -/
structure Routes where
  availablePaths : List THPath
  activePath : Option THPath
  vias : List IdentityRef
  relay : Option THRelay
  channels : Dictionary Nat ChannelRef

def Routes.set (routes : Routes) (identity : THIdentity) : THIdentity :=
  { identity with
    availablePaths := routes.availablePaths
    activePath := routes.activePath
    vias := routes.vias
    relay := routes.relay
    channels := routes.channels }

inductive Event where
  | loadSeed (fresh : Fresh) (peerChannel : Option ChannelRef) (entry : SeedEntry)
  | identityFromHashname (hashname : String)
  | identityFromParts (parts : Option Parts) (cipherSet : THCipherSet)
  | addCipherSet (identity : IdentityRef) (cipherSet : THCipherSet)
  | openLine (fresh : Fresh) (peerChannel : Option ChannelRef) (toIdentity : IdentityRef)
  | processOpen (fresh : Fresh) (incomingPacket : THPacket)
  | connect (relayFresh fresh : Fresh) (relayPeer : Option ChannelRef) (request : Connect)
  | resetIdentity (identity : IdentityRef)
  | closeLine (line : LineRef)
  | lineTimeout (job : Nat) (toIdentity : IdentityRef)
  | sendOpen (fresh : Fresh) (identity : IdentityRef)
  | routes (identity : IdentityRef) (routes : Routes)

def perform (switch : THSwitch) : Event → Except Fault THSwitch
  | .loadSeed fresh peerChannel entry => loadSeed prim switch fresh peerChannel entry
  | .identityFromHashname hashname =>
      .ok (switch.updateStore fun store => (Identity.identityFromHashname hashname store).1)
  | .identityFromParts parts cipherSet =>
      .ok (switch.updateStore fun store =>
        (Identity.identityFromParts prim.sha256 parts cipherSet store).1)
  | .addCipherSet identity cipherSet =>
      .ok (switch.updateStore fun store => store.updateIdentity identity fun identity =>
        identity.addCipherSet prim.sha256 cipherSet)
  | .openLine fresh peerChannel toIdentity =>
      Switch.openLine prim switch fresh peerChannel toIdentity
  | .processOpen fresh incomingPacket => Switch.processOpen prim switch fresh incomingPacket
  | .connect relayFresh fresh relayPeer request =>
      connect prim switch relayFresh fresh relayPeer request
  | .resetIdentity identity => .ok (resetIdentity switch identity)
  | .closeLine line => .ok (Switch.closeLine switch line)
  | .lineTimeout job toIdentity => .ok (Switch.lineTimeout switch job toIdentity)
  | .sendOpen fresh identity => sendOpenTo prim switch fresh identity
  | .routes identity routes =>
      .ok (switch.updateStore fun store => store.updateIdentity identity routes.set)

/-- A call that raises ends the program where it was. -/
def step (switch : THSwitch) (event : Event) : THSwitch :=
  (perform prim switch event).toOption.getD switch

end Operations

/-! ## A peer with keys of both sets

A platform on which a key seals what begins with its first byte, and a signature
begins with the key it is of. -/

def peerSet : CipherSetId → THCipherSet
  | .cs2a => ⟨.cs2a, [1], none⟩
  | .cs3a => ⟨.cs3a, [2], none⟩

def peerParts : Parts := (Dictionary.single "2a" (hexString [1])).insert "3a" (hexString [2])

def openTextAt (time : UInt8) : Data :=
  utf8 "\x7b\"at\":" ++ [time] ++
    utf8 ",\"from\":\x7b\"2a\":\"01\",\"3a\":\"02\"\x7d,\"line\":\"aa\"\x7d"

def openJsonAt (time : Int) : JsonDictionary :=
  ((Dictionary.single "at" (.number time)).insert "from"
    (.object [("2a", .string (hexString [1])), ("3a", .string (hexString [2]))])).insert "line"
      (.string "aa")

def sealingPrimitives : Primitives where
  serialization :=
    { dataWithJSONObject := fun _ => openTextAt 49
      JSONObjectWithData := fun text =>
        if text = openTextAt 49 then some (.dictionary (openJsonAt 1))
        else if text = openTextAt 53 then some (.dictionary (openJsonAt 5))
        else none }
  stack := ⟨0, 0⟩
  beyond := []
  sha256 := id
  beforenm publicKey secretKey := publicKey ++ secretKey
  secretboxOpen _ _ := none
  onetimeauthVerify _ _ _ := false
  rsaLoad data := some data
  rsaDecrypt _ cipherText := some (cipherText.take 1)
  rsaVerify publicKey _ signature := signature.take 1 = publicKey.take 1
  gcmDecrypt key cipherText mac := if mac.take 1 = key.take 1 then some cipherText else none
  ecdhAgree remotePublicKey secretKey := some (remotePublicKey ++ secretKey)

/-- The 2a open of the peer, behind the ephemeral key 7. -/
def open2aAt (time : UInt8) : THPacket where
  json := none
  body := some ([0x2a] ++ List.replicate 256 7 ++ List.replicate 256 1 ++ List.replicate 4 7 ++
    (header (openTextAt time).length ++ openTextAt time ++ [1]) ++ List.replicate macBytes 7)
  jsonLength := 1
  returnPath := none

def opened2aAt (digit : UInt8) (time : Int) : Opened where
  inner := ⟨some (openJsonAt time), some [1], (openTextAt digit).length, none⟩
  incomingCS := peerSet .cs2a
  remoteKey := [4, 7]
  authentic := .ok true

def ownSets : CipherParts :=
  (Dictionary.single "2a" ⟨.cs2a, [9], some []⟩).insert "3a" ⟨.cs3a, [8], some []⟩

def switchAtStart : THSwitch where
  store := .start
  hashname := ""
  cipherParts := ownSets
  openLines := .empty
  pendingJobs := []
  nextJob := 0
  cachedOpen := fun _ => none
  sent := []

def drawn : Fresh := ⟨⟨[5], [5]⟩, "bb", 1⟩

def onePath : Routes where
  availablePaths := [⟨[]⟩]
  activePath := none
  vias := []
  relay := none
  channels := .empty

set_option maxRecDepth 20000 in
theorem open2aAt_read :
    openWith sealingPrimitives ⟨.cs2a, [9], some []⟩ (open2aAt 49) =
        .ok (some (opened2aAt 49 1)) ∧
      openWith sealingPrimitives ⟨.cs2a, [9], some []⟩ (open2aAt 53) =
        .ok (some (opened2aAt 53 5)) := by
  exact ⟨rfl, rfl⟩

end Telehash.SwitchRuns
