import Telehash.Packet
import Mathlib.Data.List.Sort
import Mathlib.Data.String.Basic
import Mathlib.Logic.Function.Basic

/-!
THIdentity.m and the records it holds together: cipher sets, lines and the
identity cache. Objects are shared, so a store keeps them under references and
an update through one reference is seen through every other. Of a channel only
its state is kept here; the delegates' answers to a change of state are not
part of this model.
-/

namespace Telehash.Identity
open Association Foundation Packet

inductive CipherSetId where
  | cs2a
  | cs3a
  deriving DecidableEq

def CipherSetId.identifier : CipherSetId → String
  | .cs2a => "2a"
  | .cs3a => "3a"

/-- A cipher set of either class. The public key of a 2a set is the DER text
its RSA key is written as. -/
structure THCipherSet where
  csid : CipherSetId
  publicKey : Data
  secretKey : Option Data
  deriving DecidableEq

abbrev CipherParts := Dictionary String THCipherSet

abbrev Parts := Dictionary String String

structure KeyPair where
  publicKey : Data
  secretKey : Data

structure THCipherSetLineInfo2a where
  cipherSet : Option THCipherSet
  ecdh : Option KeyPair
  remoteECCKey : Option Data
  encryptorKey : Option Data
  decryptorKey : Option Data

structure THCipherSetLineInfo3a where
  cipherSet : Option THCipherSet
  publicLineKey : Data
  secretLineKey : Data
  remoteLineKey : Option Data
  encryptorKey : Option Data
  decryptorKey : Option Data

inductive THCipherSetLineInfo where
  | info2a (info : THCipherSetLineInfo2a)
  | info3a (info : THCipherSetLineInfo3a)

abbrev IdentityRef := Nat

abbrev LineRef := Nat

abbrev ChannelRef := Nat

structure THLine where
  toIdentity : IdentityRef
  cipherSetInfo : Option THCipherSetLineInfo
  -- whatever the other end's open has under `line`
  outLineId : Option Json
  inLineId : Option String
  isOpen : Bool
  createdAt : Nat
  nextChannelId : Nat

structure THRelay where
  peerChannel : Option ChannelRef

structure THIdentity where
  -- `_hashnameCache`, filled by the first reading of `hashname`
  hashnameCache : Option String
  cipherParts : CipherParts
  parts : Option Parts
  channels : Dictionary Nat ChannelRef
  currentLine : Option LineRef
  availablePaths : List THPath
  activePath : Option THPath
  vias : List IdentityRef
  relay : Option THRelay

structure Store where
  identities : IdentityRef → THIdentity
  nextIdentity : IdentityRef
  lines : LineRef → THLine
  nextLine : LineRef
  -- whether the channel has ended
  channelEnded : ChannelRef → Bool
  identityCache : Dictionary String IdentityRef

def THIdentity.init : THIdentity where
  hashnameCache := none
  cipherParts := .empty
  parts := none
  channels := .empty
  currentLine := none
  availablePaths := []
  activePath := none
  vias := []
  relay := none

def THLine.new (toIdentity : IdentityRef) : THLine where
  toIdentity := toIdentity
  cipherSetInfo := none
  outLineId := none
  inLineId := none
  isOpen := false
  createdAt := 0
  nextChannelId := 0

def Store.start : Store where
  identities := fun _ => .init
  nextIdentity := 0
  lines := fun _ => .new 0
  nextLine := 0
  channelEnded := fun _ => false
  identityCache := .empty

namespace Store

def updateIdentity (store : Store) (ref : IdentityRef) (change : THIdentity → THIdentity) : Store :=
  { store with identities := Function.update store.identities ref (change (store.identities ref)) }

def updateLine (store : Store) (ref : LineRef) (change : THLine → THLine) : Store :=
  { store with lines := Function.update store.lines ref (change (store.lines ref)) }

def allocIdentity (store : Store) (identity : THIdentity) : Store :=
  { store with
    identities := Function.update store.identities store.nextIdentity identity
    nextIdentity := store.nextIdentity + 1 }

def allocLine (store : Store) (line : THLine) : Store :=
  { store with
    lines := Function.update store.lines store.nextLine line
    nextLine := store.nextLine + 1 }

end Store

section Hashes
variable (sha256 : Data → Data)

def THCipherSet.fingerprint (cipherSet : THCipherSet) : Data := sha256 cipherSet.publicKey

/-- One round of the loop in `hashnameForParts:`. -/
def hashPart (parts : Parts) (shaBuffer : Data) (key : String) : Data :=
  sha256 (sha256 (shaBuffer ++ utf8 key) ++ utf8 ((parts.lookup key).getD ""))

def sortedKeys (parts : Parts) : List String := parts.keys.insertionSort (· ≤ ·)

-- A nil dictionary has no keys, so it hashes to the empty string as an empty one does.
def hashnameForParts : Option Parts → String
  | none => hexString []
  | some parts => hexString ((sortedKeys parts).foldl (hashPart sha256 parts) [])

def THIdentity.hashname (identity : THIdentity) : String :=
  identity.hashnameCache.getD (hashnameForParts sha256 identity.parts)

/-- The key belongs to the parts: they name its fingerprint under its id. -/
def keyMatches (parts : Option Parts) (cipherSet : THCipherSet) : Prop :=
  (parts.bind fun known => known.lookup cipherSet.csid.identifier) =
    some (hexString (cipherSet.fingerprint sha256))

instance (parts : Option Parts) (cipherSet : THCipherSet) :
    Decidable (keyMatches sha256 parts cipherSet) := by
  unfold keyMatches; infer_instance

def THIdentity.setKeys (parts : Option Parts) (cipherSet : THCipherSet) (identity : THIdentity) :
    THIdentity :=
  { identity with
    cipherParts := .single cipherSet.csid.identifier cipherSet
    parts := parts }

def initWithParts (parts : Option Parts) (cipherSet : THCipherSet) : Option THIdentity :=
  if keyMatches sha256 parts cipherSet then some (THIdentity.init.setKeys parts cipherSet)
  else none

/-- A new identity stored in the cache under its hashname. -/
def Store.cacheIdentity (store : Store) (hashname : String) (identity : THIdentity) : Store :=
  { store.allocIdentity { identity with hashnameCache := some hashname } with
    identityCache := store.identityCache.insert hashname store.nextIdentity }

-- Storing the identity reads its `hashname`, which fills the cache of it.
def identityFromParts (parts : Option Parts) (cipherSet : THCipherSet) (store : Store) :
    Store × Option IdentityRef :=
  match store.identityCache.lookup (hashnameForParts sha256 parts) with
  | none =>
      match initWithParts sha256 parts cipherSet with
      | none => (store, none)
      | some identity =>
          (store.cacheIdentity (identity.hashname sha256) identity, some store.nextIdentity)
  -- a known identity takes the key without any check
  | some ref => (store.updateIdentity ref (THIdentity.setKeys parts cipherSet), some ref)

def identityFromHashname (hashname : String) (store : Store) : Store × IdentityRef :=
  match store.identityCache.lookup hashname with
  | none => (store.cacheIdentity hashname .init, store.nextIdentity)
  | some ref => (store, ref)

def fingerprintParts (cipherParts : CipherParts) : Parts :=
  cipherParts.entries.foldl
    (fun parts entry => parts.insert entry.1 (hexString (entry.2.fingerprint sha256))) .empty

def THIdentity.addCipherSet (identity : THIdentity) (cipherSet : THCipherSet) : THIdentity :=
  match identity.cipherParts.lookup cipherSet.csid.identifier with
  | some _ => identity
  | none =>
      let newParts := identity.cipherParts.insert cipherSet.csid.identifier cipherSet
      { identity with
        cipherParts := newParts
        parts := some (fingerprintParts sha256 newParts) }

end Hashes

def closeChannels (ref : IdentityRef) (store : Store) : Store :=
  let channels := (store.identities ref).channels
  let closed := store.updateIdentity ref fun identity => { identity with channels := .empty }
  { closed with
    channelEnded := fun channel =>
      decide (channel ∈ channels.entries.map Prod.snd) || store.channelEnded channel }

/-- The identity's own part of `reset`; the switch forgets the line besides. -/
def reset (ref : IdentityRef) (store : Store) : Store :=
  (closeChannels ref store).updateIdentity ref fun identity =>
    { identity with
      availablePaths := []
      cipherParts := .empty
      parts := some .empty
      activePath := none
      vias := []
      relay := none
      currentLine := none }

section Updates
variable (store : Store) (ref other : IdentityRef)

@[simp] theorem identities_updateIdentity_same (change : THIdentity → THIdentity) :
    (store.updateIdentity ref change).identities ref = change (store.identities ref) := by
  simp [Store.updateIdentity]

theorem identities_updateIdentity_other (change : THIdentity → THIdentity)
    (different : other ≠ ref) :
    (store.updateIdentity ref change).identities other = store.identities other := by
  simp [Store.updateIdentity, different]

@[simp] theorem lines_updateIdentity (change : THIdentity → THIdentity) :
    (store.updateIdentity ref change).lines = store.lines := rfl

@[simp] theorem identities_allocIdentity_same (identity : THIdentity) :
    (store.allocIdentity identity).identities store.nextIdentity = identity := by
  simp [Store.allocIdentity]

@[simp] theorem lines_updateLine_same (line : LineRef) (change : THLine → THLine) :
    (store.updateLine line change).lines line = change (store.lines line) := by
  simp [Store.updateLine]

@[simp] theorem lines_allocLine_same (line : THLine) :
    (store.allocLine line).lines store.nextLine = line := by
  simp [Store.allocLine]

/-- What holds of the changed line and of the others holds of every line. -/
theorem forall_updateLine (property : LineRef → THLine → Prop) {line : LineRef}
    {change : THLine → THLine} (changed : property line (change (store.lines line)))
    (others : ∀ ref, ref ≠ line → property ref (store.lines ref)) (ref : LineRef) :
    property ref ((store.updateLine line change).lines ref) := by
  by_cases same : ref = line
  · rw [same, lines_updateLine_same]
    exact changed
  · simpa [Store.updateLine, same] using others ref same

theorem forall_allocLine (property : LineRef → THLine → Prop) {line : THLine}
    (new : property store.nextLine line)
    (old : ∀ ref < store.nextLine, property ref (store.lines ref)) :
    ∀ ref < store.nextLine + 1, property ref ((store.allocLine line).lines ref) := by
  intro ref inside
  rcases Nat.lt_succ_iff_lt_or_eq.mp inside with before | rfl
  · simpa [Store.allocLine, Nat.ne_of_lt before] using old ref before
  · rw [lines_allocLine_same]
    exact new

end Updates

theorem lookup_fingerprints (sha256 : Data → Data) {entries : List (String × THCipherSet)}
    {key : String} {cipherSet : THCipherSet} (parts : Parts)
    (unique : (entries.map Prod.fst).Nodup)
    (held : (key, cipherSet) ∈ entries ∨
      (key ∉ entries.map Prod.fst ∧
        parts.lookup key = some (hexString (cipherSet.fingerprint sha256)))) :
    (entries.foldl (fun parts entry =>
      parts.insert entry.1 (hexString (entry.2.fingerprint sha256))) parts).lookup key =
        some (hexString (cipherSet.fingerprint sha256)) := by
  induction entries generalizing parts with
  | nil =>
      rcases held with member | ⟨_, told⟩
      · cases member
      · exact told
  | cons entry rest ih =>
      rw [List.map_cons, List.nodup_cons] at unique
      apply ih _ unique.2
      rcases held with member | ⟨absent, told⟩
      · cases member with
        | head => exact Or.inr ⟨unique.1, lookup_insert_same _ _ _⟩
        | tail _ member => exact Or.inl member
      · rw [List.map_cons, List.mem_cons, not_or] at absent
        exact Or.inr ⟨absent.2, (lookup_insert_other _ _ _ _ absent.1).trans told⟩

/-- The parts of an identity name each of its sets by its fingerprint. -/
theorem lookup_fingerprintParts (sha256 : Data → Data) {cipherParts : CipherParts} {key : String}
    {cipherSet : THCipherSet} (held : cipherParts.lookup key = some cipherSet) :
    (fingerprintParts sha256 cipherParts).lookup key =
      some (hexString (cipherSet.fingerprint sha256)) :=
  lookup_fingerprints sha256 .empty cipherParts.unique
    (Or.inl ((lookup_some_iff _ _ _).mp held))

/-! ## The identity cache -/

/-- Every cached identity answers to the hashname it is cached under. -/
def Keyed (store : Store) : Prop :=
  ∀ hashname ref, store.identityCache.lookup hashname = some ref →
    ref < store.nextIdentity ∧ (store.identities ref).hashnameCache = some hashname

theorem keyed_start : Keyed .start := by
  intro hashname ref found
  cases found

theorem keyed_updateIdentity {store : Store} (keyed : Keyed store) (ref : IdentityRef)
    (change : THIdentity → THIdentity)
    (keeps : (change (store.identities ref)).hashnameCache = (store.identities ref).hashnameCache) :
    Keyed (store.updateIdentity ref change) := by
  intro hashname other found
  obtain ⟨allocated, named⟩ := keyed hashname other found
  refine ⟨allocated, ?_⟩
  by_cases same : other = ref
  · subst same
    rw [identities_updateIdentity_same, keeps]
    exact named
  · rw [identities_updateIdentity_other store ref other change same]
    exact named

theorem keyed_cacheIdentity {store : Store} (keyed : Keyed store) (hashname : String)
    (identity : THIdentity) : Keyed (store.cacheIdentity hashname identity) := by
  intro wanted ref found
  simp only [Store.cacheIdentity, lookup_insert] at found
  split at found
  · rename_i same
    cases found
    refine ⟨Nat.lt_succ_self _, ?_⟩
    simp only [Store.cacheIdentity, identities_allocIdentity_same]
    rw [same]
  · obtain ⟨allocated, known⟩ := keyed wanted ref found
    have different : ref ≠ store.nextIdentity := Nat.ne_of_lt allocated
    refine ⟨Nat.lt_succ_of_lt allocated, ?_⟩
    simpa [Store.cacheIdentity, Store.allocIdentity, different] using known

section Lookups
variable (sha256 : Data → Data) {store : Store} {parts : Option Parts} (cipherSet : THCipherSet)

/-- The three outcomes of a lookup by parts. -/
theorem identityFromParts_known {ref : IdentityRef}
    (found : store.identityCache.lookup (hashnameForParts sha256 parts) = some ref) :
    identityFromParts sha256 parts cipherSet store =
      (store.updateIdentity ref (THIdentity.setKeys parts cipherSet), some ref) := by
  simp [identityFromParts, found]

theorem identityFromParts_new {cipherSet : THCipherSet}
    (absent : store.identityCache.lookup (hashnameForParts sha256 parts) = none)
    (belongs : keyMatches sha256 parts cipherSet) :
    identityFromParts sha256 parts cipherSet store =
      (store.cacheIdentity (hashnameForParts sha256 parts)
        (THIdentity.init.setKeys parts cipherSet), some store.nextIdentity) := by
  simp [identityFromParts, absent, initWithParts, belongs, THIdentity.hashname,
    THIdentity.setKeys, THIdentity.init]

theorem identityFromParts_foreign {cipherSet : THCipherSet}
    (absent : store.identityCache.lookup (hashnameForParts sha256 parts) = none)
    (foreign : ¬ keyMatches sha256 parts cipherSet) :
    identityFromParts sha256 parts cipherSet store = (store, none) := by
  simp [identityFromParts, absent, initWithParts, foreign]

end Lookups

end Telehash.Identity
