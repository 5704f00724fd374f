import Telehash.Channel
import Telehash.Distance
import Mathlib.Data.List.Sort

/-!
The routing table of THMeshBuckets.m. Identities, lines and channels are
objects of their own; what the mesh asks of other objects is kept in a list. A
hashname is read when its identity is put into the table and cached from then
on, so an identity has one hashname throughout.
-/

namespace Telehash.MeshBuckets
open Foundation Identity Channel Distance

/-- What may be handed to `removeObject:`. An object equals itself alone. -/
inductive Object where
  | identity (ref : IdentityRef)
  | line (ref : LineRef)
  | channel (ref : ChannelRef)
  deriving DecidableEq

inductive ChannelClass where
  | reliable
  | unreliable
  deriving DecidableEq

/-- `channelForType:@"link"` of an identity. -/
structure LinkChannel where
  ref : ChannelRef
  class_ : ChannelClass
  state : THChannelState
  createdAt : Nat
  lastInActivity : Nat

structure Peer where
  hashname : String
  linkChannel : Option LinkChannel
  -- whether there is an `activePath`, and a `relay.peerChannel`
  hasActivePath : Bool
  hasPeerChannel : Bool
  currentLine : Option LineRef

/-- `initWithHashname:` -/
def withHashname (hashname : String) : Peer where
  hashname := hashname
  linkChannel := none
  hasActivePath := false
  hasPeerChannel := false
  currentLine := none

structure THMeshBuckets where
  -- the hashname of the local identity
  localIdentity : Option String
  buckets : List (List IdentityRef)
  linkTotal : Nat

inductive Request where
  | endLink (channel : ChannelRef)
  | ping (channel : ChannelRef)
  | sendOpen (line : LineRef)
  | link (channel : ChannelRef) (sees : List String)
  | reset
  | seek (hashname : String)
  | addVia (via : IdentityRef)
  | suggestCipherSet (csid : String)
  | addPath (ip port : String)
  deriving DecidableEq

structure Mesh where
  table : THMeshBuckets
  peers : IdentityRef → Peer
  asked : List (IdentityRef × Request)

def bucketSize : Nat := 8

def maxLinks : Nat := 256

/-- `init`, with the local identity set before anything is added. -/
def THMeshBuckets.init (localIdentity : Option String) : THMeshBuckets where
  localIdentity := localIdentity
  buckets := List.replicate 256 []
  linkTotal := 0

-- A negative index is a huge one once it is unsigned.
def THMeshBuckets.objectAtIndex (table : THMeshBuckets) (index : Int) :
    Except Fault (List IdentityRef) :=
  if index < 0 then .error .range
  else
    match table.buckets[index.toNat]? with
    | none => .error .range
    | some bucket => .ok bucket

namespace Mesh

def ask (mesh : Mesh) (identity : IdentityRef) (request : Request) : Mesh :=
  { mesh with asked := mesh.asked ++ [(identity, request)] }

def updatePeer (mesh : Mesh) (identity : IdentityRef) (change : Peer → Peer) : Mesh :=
  { mesh with peers := Function.update mesh.peers identity (change (mesh.peers identity)) }

def setBucket (mesh : Mesh) (index : Nat) (bucket : List IdentityRef) : Mesh :=
  { mesh with table := { mesh.table with buckets := mesh.table.buckets.set index bucket } }

def hashname (mesh : Mesh) (identity : IdentityRef) : String := (mesh.peers identity).hashname

end Mesh

def removeObject (bucket : List IdentityRef) (object : Object) : List IdentityRef :=
  bucket.filter fun identity => Object.identity identity ≠ object

variable (beyond : Data)

/-- `[self.localIdentity distanceFrom:identity]`; a message to nil answers 0. -/
def localDistance (mesh : Mesh) (identity : IdentityRef) : Except Fault Int :=
  match mesh.table.localIdentity with
  | none => .ok 0
  | some hashname => distanceFrom beyond hashname (mesh.hashname identity)

def addIdentity (mesh : Mesh) (identity : IdentityRef) : Except Fault Mesh := do
  let bucketIndex ← localDistance beyond mesh identity
  let bucket ← mesh.table.objectAtIndex bucketIndex
  if maxLinks ≤ mesh.table.linkTotal ∧ bucketSize ≤ bucket.length then
    match (mesh.peers identity).linkChannel with
    | some linkChannel => return mesh.ask identity (.endLink linkChannel.ref)
    | none => return mesh
  else if bucket.any fun current => mesh.hashname current = mesh.hashname identity then return mesh
  else return mesh.setBucket bucketIndex.toNat (bucket ++ [identity])

/-! ## Removals -/

def removeFromBucket (mesh : Mesh) (toIdentity : IdentityRef) (object : Object) :
    Except Fault Mesh := do
  let bucketIndex ← localDistance beyond mesh toIdentity
  let bucket ← mesh.table.objectAtIndex bucketIndex
  return mesh.setBucket bucketIndex.toNat (removeObject bucket object)

def removeLine (mesh : Mesh) (line : LineRef) (toIdentity : IdentityRef) : Except Fault Mesh :=
  removeFromBucket beyond mesh toIdentity (.line line)

/-- `channel:didChangeStateTo:` -/
def didChangeStateTo (mesh : Mesh) (channel : ChannelRef) (toIdentity : IdentityRef)
    (channelState : THChannelState) : Except Fault Mesh :=
  if channelState.Halted then removeFromBucket beyond mesh toIdentity (.channel channel)
  else .ok mesh

/-- `channel:didFailWithError:` -/
def didFailWithError (mesh : Mesh) (channel : ChannelRef) (toIdentity : IdentityRef) :
    Except Fault Mesh :=
  removeFromBucket beyond mesh toIdentity (.channel channel)

/-- The setter of `state` of a link channel. The unreliable one has its own,
which tells no delegate. -/
def setState (mesh : Mesh) (toIdentity : IdentityRef) (linkChannel : LinkChannel)
    (state : THChannelState) : Except Fault Mesh :=
  let changed := mesh.updatePeer toIdentity fun peer =>
    { peer with linkChannel := some { linkChannel with state := state } }
  match linkChannel.class_ with
  | .reliable => didChangeStateTo beyond changed linkChannel.ref toIdentity state
  | .unreliable => .ok changed

/-- The mesh's part of the switch's `closeLine:` for the line of an identity. -/
def closeLine (mesh : Mesh) (line : LineRef) (toIdentity : IdentityRef) : Except Fault Mesh := do
  let removed ← removeLine beyond mesh line toIdentity
  return removed.updatePeer toIdentity fun peer =>
    { peer with currentLine := if peer.currentLine = some line then none else peer.currentLine }

/-- A link channel goes through `Ended` and leaves the channels of its identity. -/
def endLink (mesh : Mesh) (identity : IdentityRef) : Except Fault Mesh := do
  match (mesh.peers identity).linkChannel with
  | none => return mesh
  | some linkChannel =>
      let ended ← if linkChannel.state ≠ .ended then
          setState beyond mesh identity linkChannel .ended else pure mesh
      return ended.updatePeer identity fun peer => { peer with linkChannel := none }

/-- A link channel gets an error: its delegate hears of it, then the state changes. -/
def failLink (mesh : Mesh) (identity : IdentityRef) : Except Fault Mesh := do
  match (mesh.peers identity).linkChannel with
  | none => return mesh
  | some linkChannel =>
      let told ← didFailWithError beyond mesh linkChannel.ref identity
      let errored ← setState beyond told identity linkChannel .errored
      return errored.updatePeer identity fun peer => { peer with linkChannel := none }

/-- `reset` of an identity, with the `closeChannels` it starts with. -/
def reset (mesh : Mesh) (identity : IdentityRef) : Except Fault Mesh := do
  let closed ← endLink beyond (mesh.ask identity .reset) identity
  let unreachable := closed.updatePeer identity fun peer =>
    { peer with hasActivePath := false, hasPeerChannel := false }
  match (unreachable.peers identity).currentLine with
  | none => return unreachable
  | some line => closeLine beyond unreachable line identity

/-! ## Pings -/

def stale (checkTime : Nat) (linkChannel : LinkChannel) : Bool :=
  linkChannel.lastInActivity + 50 ≤ checkTime && linkChannel.createdAt + 25 < checkTime

/-- The inner block of `pingLines` for the identity at an index of a bucket. -/
def pingIdentity (checkTime bucketIndex idx : Nat) (identity : IdentityRef) (mesh : Mesh) :
    Except Fault Mesh :=
  let peer := mesh.peers identity
  match peer.linkChannel with
  | some linkChannel =>
      if stale checkTime linkChannel then
        let removed := mesh.setBucket bucketIndex
          ((mesh.table.buckets.getD bucketIndex []).eraseIdx idx)
        reset beyond (removed.updatePeer identity fun peer => { peer with linkChannel := none })
          identity
      else if peer.hasActivePath || peer.hasPeerChannel then
        .ok (mesh.ask identity (.ping linkChannel.ref))
      else
        match peer.currentLine with
        | some line => .ok (mesh.ask identity (.sendOpen line))
        | none => .ok mesh
  | none => reset beyond mesh identity

/-- The indices go up while they are below the current count. -/
def pingBucket (checkTime bucketIndex : Nat) : (fuel idx : Nat) → Mesh → Except Fault Mesh
  | 0, _, mesh => .ok mesh
  | fuel + 1, idx, mesh =>
      match (mesh.table.buckets.getD bucketIndex [])[idx]? with
      | none => .ok mesh
      | some identity => do
          pingBucket checkTime bucketIndex fuel (idx + 1)
            (← pingIdentity beyond checkTime bucketIndex idx identity mesh)

-- A pass adds nothing to a bucket, so it has at most as many turns as entries.
def pingLines (mesh : Mesh) (checkTime : Nat) : Except Fault Mesh :=
  (List.range mesh.table.buckets.length).foldlM (fun mesh bucketIndex =>
    pingBucket beyond checkTime bucketIndex (mesh.table.buckets.getD bucketIndex []).length 0 mesh)
    mesh

/-! ## Close identities -/

inductive NSComparisonResult where
  | orderedAscending
  | orderedSame
  | orderedDescending
  deriving DecidableEq

abbrev Comparator := IdentityRef → IdentityRef → NSComparisonResult

/-- `sortedArrayUsingComparator:` of the framework. -/
abbrev Sorting := Comparator → List IdentityRef → List IdentityRef

/-- A stable merge sort takes from the right half only what is to come first. -/
def stableSort : Sorting := fun comparator items =>
  items.mergeSort fun obj1 obj2 => comparator obj1 obj2 ≠ .orderedDescending

/-- The comparator of `closeInBucket:` and of the resort of a seek. -/
def compareDistances (distance : IdentityRef → Int) : Comparator := fun obj1 obj2 =>
  let hash1 := distance obj1
  let hash2 := distance obj2
  if hash1 < hash2 then .orderedDescending
  else if hash2 > hash1 then .orderedAscending
  else .orderedSame

/-- The sort with that comparator. Of two entries or more each is compared. -/
def sortByDistance (sorting : Sorting) (distanceTo : IdentityRef → Except Fault Int)
    (items : List IdentityRef) : Except Fault (List IdentityRef) := do
  if 2 ≤ items.length then
    let _ ← items.mapM distanceTo
  return sorting (compareDistances fun item => (distanceTo item).toOption.getD 0) items

def seekDistance (mesh : Mesh) (seekIdentity : IdentityRef) (identity : IdentityRef) :
    Except Fault Int :=
  distanceFrom beyond (mesh.hashname seekIdentity) (mesh.hashname identity)

variable (sorting : Sorting)

def closeInBucket (mesh : Mesh) (seekIdentity : IdentityRef) :
    Except Fault (List IdentityRef) := do
  let bucketIndex ← localDistance beyond mesh seekIdentity
  let bucket ← mesh.table.objectAtIndex bucketIndex
  let results ← sortByDistance sorting (seekDistance beyond mesh seekIdentity) bucket
  return results.take (min 5 results.length)

/-- The entries found so far, and how many they were at each subtraction from 5. -/
structure Filling where
  entries : List IdentityRef
  counts : List Nat

/-- `5 - entries.count`, as unsigned numbers. -/
def spaceLeft (entries : List IdentityRef) : Nat :=
  (5 + uintModulus - entries.length) % uintModulus

def fillFrom (bucket : List IdentityRef) (filling : Filling) : Filling :=
  if bucket.length = 0 then filling
  else
    { entries := filling.entries ++
        bucket.take (min (spaceLeft filling.entries) bucket.length)
      counts := filling.counts ++ [filling.entries.length] }

/-- The loop of `nearby:` from below a bucket downwards. -/
def fillDown (table : THMeshBuckets) : (curBucketIndex : Nat) → Filling → Except Fault Filling
  | 0, filling => .ok filling
  | curBucketIndex + 1, filling =>
      if filling.entries.length < 5 then do
        let curBucket ← table.objectAtIndex curBucketIndex
        fillDown table curBucketIndex (fillFrom curBucket filling)
      else .ok filling

/-- The loop upwards, with the turns it has until 256. -/
def fillUp (table : THMeshBuckets) :
    (turns curBucketIndex : Nat) → Filling → Except Fault Filling
  | 0, _, filling => .ok filling
  | turns + 1, curBucketIndex, filling => do
      let curBucket ← table.objectAtIndex curBucketIndex
      fillUp table turns (curBucketIndex + 1) (fillFrom curBucket filling)

def nearbyFilling (mesh : Mesh) (seekIdentity : IdentityRef) : Except Fault Filling := do
  let initialBucketIndex ← localDistance beyond mesh seekIdentity
  let closest ← closeInBucket beyond sorting mesh seekIdentity
  let lower ← fillDown mesh.table initialBucketIndex.toNat ⟨closest, []⟩
  fillUp mesh.table (256 - (initialBucketIndex.toNat + 1)) (initialBucketIndex.toNat + 1) lower

def nearby (mesh : Mesh) (seekIdentity : IdentityRef) : Except Fault (List IdentityRef) := do
  return (← nearbyFilling beyond sorting mesh seekIdentity).entries

/-- `linkToIdentity:`. `seekString` is `seekStringForIdentity:`; a new link
channel is among the identity's channels at once if there is a line for it. -/
def linkToIdentity (seekString : IdentityRef → IdentityRef → Option String)
    (newChannel : LinkChannel) (mesh : Mesh) (identity : IdentityRef) : Except Fault Mesh := do
  let added ← addIdentity beyond mesh identity
  let seeIdentities ← nearby beyond sorting added identity
  let sees := seeIdentities.filterMap fun seeIdentity => seekString seeIdentity identity
  match (added.peers identity).linkChannel with
  | some linkChannel => return added.ask identity (.link linkChannel.ref sees)
  | none =>
      let opened := added.ask identity (.link newChannel.ref sees)
      return opened.updatePeer identity fun peer =>
        { peer with linkChannel := if peer.currentLine.isSome then some newChannel else none }

end Telehash.MeshBuckets
