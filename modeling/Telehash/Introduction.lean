import Telehash.Handshake
import Telehash.LocalHashname
import Telehash.PathExchange
import Telehash.PeerRelays

/-!
An introduction. An identity that is to be reached over a via is asked for with a peer
request, THRelay.m; the via tells it of the asking one in a connect, and it learns that
identity from the connect alone, THLine.m. The request carries one key, of the suggested
set; the connect is read as one of the highest set.
-/

namespace Telehash.Introduction
open Association Foundation Packet Identity CipherSet Switch LocalPaths PathNegotiation SeeStrings
open SwitchRuns THSwitch
open PathExchange (Proper remember)
open SwitchSound (IdKeyed)
open Handshake (withNewLine)

/-- What the asking switch knows: its own sets and paths, and of the identity it looks for the
hashname, whether it is local and the id of the set that was suggested for it. -/
structure Asking where
  cipherParts : CipherParts
  paths : KnownPaths
  toHashname : String
  toPaths : KnownPaths
  suggestedCipherSet : Option String

/-- The packet `attachVia:` sends on a channel with its id; `drawn` is the id it draws besides.
Without a key of the suggested set none is sent. -/
def peerPacket (order : ByteOrder) (asking : Asking) (drawn channelId : Nat) :
    Except Fault (Option THPacket) := do
  let numbered := THPacket.new.setObject (.number drawn) "c"
  let named := ((numbered.setObject (.string asking.toHashname) "peer").setObject
    (.string "peer") "type").setObject (.number channelId) "c"
  let paths ← pathInformationTo order asking.paths asking.toPaths false
  let pathed := named.setObject (.array (paths.map informationJson)) "paths"
  match asking.suggestedCipherSet.bind fun csid => asking.cipherParts.lookup csid with
  | none => return none
  | some chosenCS => return some { pathed with body := some chosenCS.publicKey }

/-! ## The connect branch -/

/-- A path as the identities of a switch keep it, by the port and the address it tells. -/
def keptPath (order : ByteOrder) (path : THIPV4Path) : THPath :=
  let port := path.port order
  let address := path.toAddress.sinAddr
  ⟨[UInt8.ofNat (port / 256), UInt8.ofNat port, address.first, address.second, address.third,
    address.fourth]⟩

/-- The paths of a connect, on the transport it came by, and of a bridge. -/
def connectOffers (order : ByteOrder) (stack : SockaddrIn) (innerPacket : THPacket)
    (returnPath : Option THIPV4Path) : Except Fault (List THIPV4Path) := do
  let transportPort := (returnPath.map THIPV4Path.transportPort).getD 0
  let offers ← enumerated (innerPacket.objectForKey "paths")
  let offered ← offers.mapM (connectPath order stack transportPort)
  match innerPacket.objectForKey "bridge", returnPath with
  | none, _ => return offered.reduceOption
  | some _, none => .error .nilArgument
  | some _, some returnPath => do
      let _ ← information order returnPath
      return offered.reduceOption ++ [returnPath]

def closePacket (channelId : Json) : THPacket :=
  (THPacket.new.setObject (.bool true) "end").setObject channelId "c"

/-- The branch for a packet of type connect, with the packet it sends back along the path
the connect came on when there is no identity it can be of. -/
def handleConnect (prim : Primitives) (order : ByteOrder) (stack : SockaddrIn) (switch : THSwitch)
    (relayFresh fresh : Fresh) (relayPeer : Option ChannelRef) (relayIdentity : IdentityRef)
    (peerChannel : ChannelRef) (innerPacket : THPacket) (returnPath : Option THIPV4Path) :
    Except Fault (THSwitch × Option THPacket) := do
  let fromParts ← partsOf (innerPacket.objectForKey "from")
  let cs ← connectSet prim fromParts innerPacket.body
  match ← connectIdentity prim fromParts cs switch.store with
  | (store, none) =>
      match innerPacket.objectForKey "c" with
      | none => .error .nilArgument
      | some channelId =>
          return ({ switch with store := store }, returnPath.map fun _ => closePacket channelId)
  | (_, some _) => do
      let paths ← connectOffers order stack innerPacket returnPath
      let connected ← connect prim switch relayFresh fresh relayPeer
        ⟨innerPacket, paths.map (keptPath order), relayIdentity, peerChannel⟩
      return (connected, none)

/-! ## Paths told and kept -/

section Paths
variable {order theirOrder : ByteOrder} {stack : SockaddrIn}

/-- What tells a path from others is what it is kept by. -/
theorem keptPath_iff {one other : THIPV4Path} (ipv4 : one.toAddress.sinFamily = afInet)
    (ipv4Other : other.toAddress.sinFamily = afInet) (short : one.port order < 65536)
    (shortOther : other.port theirOrder < 65536) :
    keptPath order one = keptPath theirOrder other ↔
      information order one = information theirOrder other := by
  rw [information_ipv4 order ipv4, information_ipv4 theirOrder ipv4Other, Except.ok.injEq,
    ipv4Information, ipv4Information, PathInformation.mk.injEq, and_iff_right rfl]
  unfold keptPath
  simp only [THPath.mk.injEq, List.cons.injEq, and_true]
  constructor
  · rintro ⟨high, low, first, second, third, fourth⟩
    constructor
    · have address : one.toAddress.sinAddr = other.toAddress.sinAddr :=
        (InAddr.mk.injEq _ _ _ _ _ _ _ _).mpr ⟨first, second, third, fourth⟩
      rw [address]
    · have high := congrArg UInt8.toNat high
      have low := congrArg UInt8.toNat low
      simp only [UInt8.toNat_ofNat'] at high low
      omega
  · rintro ⟨ip, port⟩
    rw [inetNtoa_injective ip, port]
    exact ⟨rfl, rfl, rfl, rfl, rfl, rfl⟩

/-- An IPv4 path of a port that can be told. -/
structure Tellable (order : ByteOrder) (path : THIPV4Path) : Prop where
  ipv4 : path.toAddress.sinFamily = afInet
  positive : 0 < path.port order
  short : path.port order < 65536

theorem proper_tellable {path : THIPV4Path} (tellable : Tellable order path) :
    Proper (ipv4Information order path) :=
  ⟨rfl, ⟨_, rfl⟩, tellable.positive, tellable.short⟩

/-- The path that is read of the information of another is kept as that one. -/
theorem keptPath_read {path : THIPV4Path} (tellable : Tellable order path) (transportPort : Nat) :
    keptPath theirOrder ⟨socketAddress theirOrder stack (ipv4Information order path).ip
        (ipv4Information order path).port, transportPort⟩ = keptPath order path := by
  have told : information theirOrder ⟨socketAddress theirOrder stack
      (ipv4Information order path).ip (ipv4Information order path).port, transportPort⟩ =
        information order path :=
    (PathExchange.information_socketAddress (proper_tellable tellable) transportPort).trans
      (information_ipv4 order tellable.ipv4).symm
  refine (keptPath_iff rfl tellable.ipv4 ?_ tellable.short).mpr told
  have same := (information_ipv4 theirOrder rfl).symm.trans
    (told.trans (information_ipv4 order tellable.ipv4))
  have port := congrArg PathInformation.port (Except.ok.inj same)
  exact lt_of_eq_of_lt port tellable.short

/-- The paths of a connect that offers those of another switch are kept as that has them. -/
theorem connectOffers_told {paths : List THIPV4Path} {innerPacket : THPacket}
    (tellable : ∀ path ∈ paths, Tellable order path)
    (told : innerPacket.objectForKey "paths" =
      some (.array (paths.map fun path => informationJson (ipv4Information order path))))
    (unbridged : innerPacket.objectForKey "bridge" = none) (returnPath : Option THIPV4Path) :
    ∃ offers, connectOffers theirOrder stack innerPacket returnPath = .ok offers ∧
      offers.map (keptPath theirOrder) = paths.map (keptPath order) := by
  have reads : ∀ transportPort, ∃ offered : List THIPV4Path,
      (paths.map fun path => informationJson (ipv4Information order path)).mapM
          (connectPath theirOrder stack transportPort) = .ok (offered.map some) ∧
        offered.map (keptPath theirOrder) = paths.map (keptPath order) := by
    intro transportPort
    clear told
    induction paths with
    | nil => exact ⟨[], rfl, rfl⟩
    | cons path rest ih =>
        rw [List.forall_mem_cons] at tellable
        obtain ⟨offered, read, kept⟩ := ih tellable.2
        refine ⟨⟨socketAddress theirOrder stack (ipv4Information order path).ip
          (ipv4Information order path).port, transportPort⟩ :: offered, ?_, ?_⟩
        · rw [List.map_cons, List.mapM_cons,
            PathExchange.connectPath_informationJson (proper_tellable tellable.1), ok_bind, read]
          rfl
        · rw [List.map_cons, keptPath_read tellable.1, kept, List.map_cons]
  obtain ⟨offered, read, kept⟩ := reads ((returnPath.map THIPV4Path.transportPort).getD 0)
  refine ⟨offered, ?_, kept⟩
  unfold connectOffers
  simp only [told, unbridged, enumerated, ok_bind, read, pure_eq_ok]
  have whole : (offered.map some).reduceOption = offered := by
    change (offered.map some).filterMap id = offered
    simp
  rw [whole]

end Paths

/-! ## Sets and their order -/

/-- The sets of an identity, each under its id and with a key that is read as it is written. -/
structure Readable (prim : Primitives) (own : CipherParts) : Prop where
  keyed : IdKeyed own
  loads : ∀ id cipherSet, own.lookup id = some cipherSet →
    match cipherSet.csid with
    | .cs2a => prim.rsaLoad cipherSet.publicKey = some cipherSet.publicKey
    | .cs3a => cipherSet.publicKey.length = publicKeyBytes
  -- what a 3a key is read from in a 2a key is not the 3a key
  apart : ∀ one other, own.lookup "2a" = some one → own.lookup "3a" = some other →
    prim.sha256 (readBytes prim.beyond publicKeyBytes one.publicKey) ≠
      prim.sha256 other.publicKey

def Highest (own : CipherParts) (csid : String) : Prop :=
  csid ∈ own.keys ∧ ∀ id ∈ own.keys, id ≤ csid

instance (own : CipherParts) (csid : String) : Decidable (Highest own csid) := by
  unfold Highest; infer_instance

theorem getLast_sortedKeys {parts : Parts} {csid : String} (member : csid ∈ parts.keys)
    (highest : ∀ id ∈ parts.keys, id ≤ csid) : (sortedKeys parts).getLast? = some csid := by
  have listed : ∀ id, id ∈ sortedKeys parts ↔ id ∈ parts.keys := fun id =>
    List.mem_insertionSort _
  have sorted : (sortedKeys parts).Pairwise (· ≤ ·) := List.pairwise_insertionSort _ _
  cases last : (sortedKeys parts).getLast? with
  | none =>
      rw [List.getLast?_eq_none_iff] at last
      have inside := (listed csid).mpr member
      rw [last] at inside
      cases inside
  | some id =>
      obtain ⟨before, whole⟩ := List.getLast?_eq_some_iff.mp last
      have below : id ≤ csid := highest id ((listed id).mp (List.mem_of_getLast? last))
      have above : csid ≤ id := by
        have inside := (listed csid).mpr member
        rw [whole] at inside sorted
        rcases List.mem_append.mp inside with earlier | final
        · exact (List.pairwise_append.mp sorted).2.2 csid earlier id (List.mem_singleton_self id)
        · exact le_of_eq (List.mem_singleton.mp final)
      rw [le_antisymm below above]

section Sets
variable {prim : Primitives} {own : CipherParts} {csid : String} {cipherSet : THCipherSet}

theorem mem_keys_fingerprintParts (sha256 : Data → Data) (own : CipherParts) (csid : String) :
    csid ∈ (fingerprintParts sha256 own).keys ↔ csid ∈ own.keys := by
  rw [mem_keys_iff, mem_keys_iff, LocalHashname.lookup_fingerprintParts_eq, Option.isSome_map]

theorem highest_parts (sha256 : Data → Data) (highest : Highest own csid) :
    (sortedKeys (fingerprintParts sha256 own)).getLast? = some csid := by
  refine getLast_sortedKeys ((mem_keys_fingerprintParts sha256 own csid).mpr highest.1) ?_
  exact fun id member => highest.2 id ((mem_keys_fingerprintParts sha256 own id).mp member)

theorem readBytes_whole (beyond : Data) {count : Nat} {data : Data} (length : data.length = count) :
    readBytes beyond count data = data := by
  rw [readBytes, ← length, List.take_left]

/-- The key of the highest set is read from a connect as it is. -/
theorem connectSet_highest (readable : Readable prim own) (held : own.lookup csid = some cipherSet)
    (highest : Highest own csid) :
    connectSet prim (some (fingerprintParts prim.sha256 own)) (some cipherSet.publicKey) =
      .ok (some ⟨cipherSet.csid, cipherSet.publicKey, none⟩) := by
  have named := readable.keyed csid cipherSet held
  have loads := readable.loads csid cipherSet held
  unfold connectSet
  rw [Option.bind_some, highest_parts prim.sha256 highest]
  subst named
  cases class_ : cipherSet.csid with
  | cs2a =>
      rw [class_] at loads
      simp [CipherSetId.identifier, set2a, loads]
  | cs3a =>
      rw [class_] at loads
      simp [CipherSetId.identifier, set3a, readBytes_whole prim.beyond loads]

/-- The key of each set is one the parts bear out. -/
theorem keyMatches_held (readable : Readable prim own) (held : own.lookup csid = some cipherSet) :
    keyMatches prim.sha256 (some (fingerprintParts prim.sha256 own))
      ⟨cipherSet.csid, cipherSet.publicKey, none⟩ := by
  have named := readable.keyed csid cipherSet held
  unfold keyMatches
  rw [Option.bind_some]
  change (fingerprintParts prim.sha256 own).lookup cipherSet.csid.identifier = _
  rw [← named]
  have told := lookup_fingerprintParts prim.sha256 held
  exact told

theorem identifier_cases (csid : CipherSetId) :
    csid.identifier = "2a" ∨ csid.identifier = "3a" := by
  cases csid
  · exact Or.inl rfl
  · exact Or.inr rfl

/-- A key of a lower set is taken for one of the 3a set, which the parts do not bear out. -/
theorem connectSet_lower (readable : Readable prim own) (held : own.lookup csid = some cipherSet)
    (lower : ¬ Highest own csid) :
    ∃ read, connectSet prim (some (fingerprintParts prim.sha256 own)) (some cipherSet.publicKey) =
        .ok (some read) ∧
      ¬ keyMatches prim.sha256 (some (fingerprintParts prim.sha256 own)) read := by
  have named : ∀ id ∈ own.keys, id = "2a" ∨ id = "3a" := by
    intro id member
    obtain ⟨known, found⟩ := Option.isSome_iff_exists.mp ((mem_keys_iff own id).mp member)
    have named := readable.keyed id known found
    rcases identifier_cases known.csid with two | three
    · exact Or.inl (named.trans two)
    · exact Or.inr (named.trans three)
  have member : csid ∈ own.keys := (mem_keys_iff own csid).mpr (held ▸ rfl)
  have above : ∃ id ∈ own.keys, ¬ id ≤ csid := by
    by_contra none_
    refine lower ⟨member, fun id inside => ?_⟩
    by_contra larger
    exact none_ ⟨id, inside, larger⟩
  obtain ⟨id, inside, larger⟩ := above
  have ids : csid = "2a" ∧ id = "3a" := by
    rcases named csid member with rfl | rfl <;> rcases named id inside with rfl | rfl
    · exact absurd le_rfl larger
    · exact ⟨rfl, rfl⟩
    · exact absurd (by decide) larger
    · exact absurd le_rfl larger
  obtain ⟨rfl, rfl⟩ := ids
  obtain ⟨other, found⟩ := Option.isSome_iff_exists.mp ((mem_keys_iff own "3a").mp inside)
  have top : Highest own "3a" := by
    refine ⟨inside, fun id listed => ?_⟩
    rcases named id listed with rfl | rfl <;> decide
  refine ⟨set3a prim (some cipherSet.publicKey), ?_, ?_⟩
  · rw [connectSet, Option.bind_some, highest_parts prim.sha256 top]
    rfl
  · intro matches_
    have told := lookup_fingerprintParts prim.sha256 found
    have same : some (hexString (prim.sha256 other.publicKey)) = some (hexString
        (prim.sha256 (readBytes prim.beyond publicKeyBytes cipherSet.publicKey))) :=
      told.symm.trans matches_
    exact readable.apart cipherSet other held found
      (PartsHash.hexString_injective (Option.some.inj same)).symm

end Sets

/-! ## The identity that is asked for -/

/-- What a connect has made of the identity it brings: known by its parts and the key of the
connect, to be reached over the paths of the connect, each kept once, and through the relay.
It has a line if there is a path to it, and was sent an open then if there is a set for it. -/
structure Introduced (prim : Primitives) (switch after : THSwitch) (fresh : Fresh)
    (peerChannel : ChannelRef) (parts : Parts) (cipherSet : THCipherSet) (paths : List THPath) :
    Prop where
  cached : after.store.identityCache.lookup (hashnameForParts prim.sha256 (some parts)) =
    some switch.store.nextIdentity
  named : (after.store.identities switch.store.nextIdentity).hashnameCache =
    some (hashnameForParts prim.sha256 (some parts))
  told : (after.store.identities switch.store.nextIdentity).parts = some parts
  keys : (after.store.identities switch.store.nextIdentity).cipherParts =
    .single cipherSet.csid.identifier cipherSet
  ways : (after.store.identities switch.store.nextIdentity).availablePaths =
    paths.foldl remember []
  relay : (after.store.identities switch.store.nextIdentity).relay = some ⟨some peerChannel⟩
  line : (after.store.identities switch.store.nextIdentity).currentLine.isSome ↔ paths ≠ []
  silent : paths = [] ∨ switch.cipherParts.lookup cipherSet.csid.identifier = none →
    after.sent = switch.sent
  opens : paths ≠ [] → ∀ own,
    switch.cipherParts.lookup cipherSet.csid.identifier = some own →
    ∃ publicLineKey, after.sent = switch.sent ++ [openFor prim own switch.cipherParts
      (hashnameForParts prim.sha256 (some parts)) fresh.lineId fresh.time publicLineKey]

/-- A switch that is told of a stranger by an identity it has a line to. -/
structure Told (prim : Primitives) (switch : THSwitch) (relayIdentity : IdentityRef)
    (parts : Parts) : Prop where
  stranger : switch.store.identityCache.lookup (hashnameForParts prim.sha256 (some parts)) = none
  keyed : IdKeyed switch.cipherParts
  known : relayIdentity < switch.store.nextIdentity
  lined : (switch.store.identities relayIdentity).currentLine.isSome
  unused : switch.cachedOpen switch.store.nextLine = none

section Connecting
variable {prim : Primitives} {switch : THSwitch} {request : Connect} {parts : Parts}
  {cipherSet : THCipherSet} {middle : THSwitch}

theorem remember_nil {Item : Type} [DecidableEq Item] (items known : List Item) :
    items.foldl remember known = [] ↔ items = [] ∧ known = [] := by
  induction items generalizing known with
  | nil => simp
  | cons item rest ih =>
      have filled : remember known item ≠ [] := by
        unfold remember
        split
        · rename_i member
          exact List.ne_nil_of_mem member
        · exact List.append_ne_nil_of_right_ne_nil _ (List.cons_ne_nil _ _)
      rw [List.foldl_cons, ih]
      simp [filled]

theorem addPaths_eq (paths : List THPath) (identity : Identity.THIdentity) :
    paths.foldl (fun identity path => SwitchRuns.addPath path identity) identity =
      { identity with availablePaths := paths.foldl remember identity.availablePaths } := by
  induction paths generalizing identity with
  | nil => rfl
  | cons path rest ih =>
      have adds : SwitchRuns.addPath path identity =
          { identity with availablePaths := remember identity.availablePaths path } := by
        unfold SwitchRuns.addPath remember
        split <;> rfl
      rw [List.foldl_cons, adds, ih]
      rfl

/-- The identity of a connect as it is when a line to it is opened. -/
def introduced (prim : Primitives) (request : Connect) (parts : Parts) (cipherSet : THCipherSet) :
    Identity.THIdentity :=
  let made := { THIdentity.init.setKeys (some parts) cipherSet with
    hashnameCache := some (hashnameForParts prim.sha256 (some parts)) }
  { request.paths.foldl (fun identity path => SwitchRuns.addPath path identity) made with
    relay := some ⟨some request.peerChannel⟩ }

/-- The switch of a connect from a stranger before it opens a line to it. -/
def met (prim : Primitives) (switch : THSwitch) (request : Connect) (parts : Parts)
    (cipherSet : THCipherSet) : THSwitch :=
  let hashname := hashnameForParts prim.sha256 (some parts)
  let made := switch.store.cacheIdentity hashname (THIdentity.init.setKeys (some parts) cipherSet)
  let reached := made.updateIdentity switch.store.nextIdentity fun identity =>
    request.paths.foldl (fun identity path => SwitchRuns.addPath path identity) identity
  { switch with
    store := reached.updateIdentity switch.store.nextIdentity fun identity =>
      { identity with relay := some ⟨some request.peerChannel⟩ } }

structure Meets (prim : Primitives) (switch met : THSwitch) (request : Connect) (parts : Parts)
    (cipherSet : THCipherSet) : Prop where
  identity : met.store.identities switch.store.nextIdentity =
    introduced prim request parts cipherSet
  cached : met.store.identityCache.lookup (hashnameForParts prim.sha256 (some parts)) =
    some switch.store.nextIdentity
  nextLine : met.store.nextLine = switch.store.nextLine
  cipherParts : met.cipherParts = switch.cipherParts
  cachedOpen : met.cachedOpen = switch.cachedOpen
  sent : met.sent = switch.sent

theorem connect_stranger (told : Told prim switch request.relayIdentity parts)
    (read : partsOf (request.innerPacket.objectForKey "from") = .ok (some parts))
    (set : connectSet prim (some parts) request.innerPacket.body = .ok (some cipherSet))
    (belongs : keyMatches prim.sha256 (some parts) cipherSet) (relayFresh fresh : Fresh)
    (relayPeer : Option ChannelRef) :
    connect prim switch relayFresh fresh relayPeer request =
      openLine prim (met prim switch request parts cipherSet) fresh none
        switch.store.nextIdentity := by
  have other : request.relayIdentity ≠ switch.store.nextIdentity := Nat.ne_of_lt told.known
  have made := identityFromParts_new prim.sha256 told.stranger belongs
  obtain ⟨line, lined⟩ := Option.isSome_iff_exists.mp told.lined
  have unlined : ((switch.store.cacheIdentity (hashnameForParts prim.sha256 (some parts))
      (THIdentity.init.setKeys (some parts) cipherSet)).identities
        switch.store.nextIdentity).currentLine = none := by
    simp [Store.cacheIdentity, THIdentity.setKeys, THIdentity.init]
  have kept : ((switch.store.cacheIdentity (hashnameForParts prim.sha256 (some parts))
      (THIdentity.init.setKeys (some parts) cipherSet)).identities
        request.relayIdentity).currentLine = some line := by
    simpa [Store.cacheIdentity, Store.allocIdentity, other] using lined
  unfold connect
  simp only [read, set, ok_bind, connectIdentity, made]
  rw [forsake]
  simp only [unlined]
  rw [openRelayChannel]
  simp only [updateStore, identities_updateIdentity_other _ _ _ _ other, kept, ok_bind]
  rfl

theorem meets_met : Meets prim switch (met prim switch request parts cipherSet) request parts
    cipherSet where
  identity := by simp [met, introduced, Store.cacheIdentity]
  cached := by simp [met, Store.cacheIdentity, Store.updateIdentity]
  nextLine := rfl
  cipherParts := rfl
  cachedOpen := rfl
  sent := rfl

/-- The open on a new line to an identity that is known by one key and has a path. -/
structure Opens (prim : Primitives) (switch after : THSwitch) (fresh : Fresh) (hashname : String)
    (id : String) : Prop where
  identities : after.store.identities = switch.store.identities
  cached : after.store.identityCache = switch.store.identityCache
  silent : switch.cipherParts.lookup id = none → after.sent = switch.sent
  sent : ∀ own, switch.cipherParts.lookup id = some own → ∃ publicLineKey,
    after.sent = switch.sent ++
      [openFor prim own switch.cipherParts hashname fresh.lineId fresh.time publicLineKey]

theorem chooseCipherSet_unshared {own : CipherParts} {id : String} (absent : own.lookup id = none) :
    chooseCipherSet own (.single id cipherSet) = none := by
  have none_ : sharedIds own (.single id cipherSet) = [] := by
    refine List.eq_nil_iff_forall_not_mem.mpr fun other member => ?_
    obtain ⟨listed, kept⟩ := List.mem_filter.mp ((List.mem_insertionSort _).mp member)
    have same : other = id := by
      by_contra different
      simp [Dictionary.single, Dictionary.lookup, find, Ne.symm different] at kept
    have present := (mem_keys_iff own other).mp listed
    rw [same, absent] at present
    cases present
  rw [chooseCipherSet, none_]

theorem sendOpen_opens {lined : THSwitch} {line : LineRef} {peer : IdentityRef}
    {hashname id : String} (keyed : IdKeyed lined.cipherParts)
    (new : lined.store.lines line = .new peer)
    (unused : lined.cachedOpen line = none)
    (only : (lined.store.identities peer).cipherParts = .single id cipherSet)
    (named : (lined.store.identities peer).hashname prim.sha256 = hashname)
    (reachable : (lined.store.identities peer).availablePaths ≠ []) (fresh : Fresh) :
    ∃ after, sendOpen prim lined fresh line = .ok after ∧
      Opens prim lined after fresh hashname id := by
  have owner : (lined.store.lines line).toIdentity = peer := by rw [new]; rfl
  unfold sendOpen
  rw [unused]
  dsimp only
  unfold generateOpen
  simp only [owner, only]
  cases found : lined.cipherParts.lookup id with
  | none =>
      simp only [chooseCipherSet_unshared found, ok_bind]
      refine ⟨_, rfl, rfl, rfl, fun _ => rfl, fun own held => ?_⟩
      rw [found] at held
      cases held
  | some own =>
      have chosen := chooseCipherSet_single found cipherSet
      have same : id = own.csid.identifier := keyed id own found
      have blank : (lined.store.lines line).cipherSetInfo = none := by rw [new]; rfl
      have nameless : (lined.store.lines line).inLineId = none := by rw [new]; rfl
      obtain ⟨placed, keys, places⟩ := @Handshake.withLineKeys_places own.csid
        (startLineInfo own.csid ((Dictionary.single id cipherSet).lookup own.csid.identifier)
          fresh.lineKeys)
        (by unfold startLineInfo; cases own.csid <;> rfl) fresh.lineKeys
      simp only [chosen, blank, nameless, Option.getD_none, places, ok_bind, pure_eq_ok, named]
      have sends : ∀ (cached : THSwitch) (opened : Opened),
          (cached.store.identities (cached.toIdentity line)).availablePaths ≠ [] →
          transmit cached line opened = { cached with sent := cached.sent ++ [opened] } := by
        intro cached opened some_
        simp [transmit, some_]
      refine ⟨_, rfl, ?_⟩
      rw [sends]
      · refine ⟨rfl, rfl, fun absent => ?_, fun held found_ => ?_⟩
        · rw [found] at absent
          cases absent
        · rw [found] at found_
          cases found_
          exact ⟨_, rfl⟩
      · have same : ((lined.store.updateLine line fun held => { held with
            cipherSetInfo := some placed, inLineId := some fresh.lineId }).lines line).toIdentity =
              peer := by
          simp [owner]
        simp only [THSwitch.toIdentity, updateStore, same]
        exact reachable

/-- The identity of a connect knows the stranger, its paths and the relay. -/
theorem introduced_eq (prim : Primitives) (request : Connect) (parts : Parts)
    (cipherSet : THCipherSet) :
    introduced prim request parts cipherSet =
      { THIdentity.init with
        hashnameCache := some (hashnameForParts prim.sha256 (some parts))
        parts := some parts
        cipherParts := .single cipherSet.csid.identifier cipherSet
        availablePaths := request.paths.foldl remember []
        relay := some ⟨some request.peerChannel⟩ } := by
  simp only [introduced, addPaths_eq]
  rfl

theorem openLine_met (told : Told prim switch request.relayIdentity parts)
    (meets : Meets prim switch middle request parts cipherSet) (fresh : Fresh) :
    ∃ after, openLine prim middle fresh none switch.store.nextIdentity = .ok after ∧
      Introduced prim switch after fresh request.peerChannel parts cipherSet request.paths := by
  have identity := meets.identity.trans (introduced_eq prim request parts cipherSet)
  have filled : request.paths.foldl remember [] = [] ↔ request.paths = [] :=
    (remember_nil request.paths []).trans (and_iff_left rfl)
  generalize availablePaths_ : request.paths.foldl remember [] = availablePaths at identity filled
  generalize peer_ : switch.store.nextIdentity = peer at identity
  have still : ∀ after : THSwitch, after.store.identityCache = middle.store.identityCache →
      (∃ currentLine, after.store.identities peer =
          { middle.store.identities peer with currentLine := currentLine } ∧
        (currentLine.isSome ↔ request.paths ≠ [])) →
      (request.paths = [] ∨ switch.cipherParts.lookup cipherSet.csid.identifier = none →
        after.sent = switch.sent) →
      (request.paths ≠ [] → ∀ own, switch.cipherParts.lookup cipherSet.csid.identifier = some own →
        ∃ publicLineKey, after.sent = switch.sent ++ [openFor prim own switch.cipherParts
          (hashnameForParts prim.sha256 (some parts)) fresh.lineId fresh.time publicLineKey]) →
      Introduced prim switch after fresh request.peerChannel parts cipherSet request.paths := by
    rintro after cached ⟨currentLine, lined, line⟩ silent opens
    rw [identity] at lined
    constructor
    case cached => rw [cached]; exact meets.cached
    case silent => exact silent
    case opens => exact opens
    case ways => rw [peer_, lined, availablePaths_]
    case line => rw [peer_, lined]; exact line
    all_goals rw [peer_, lined]
  generalize queuing : (if middle.pendingJobs.any fun job =>
      samePeer prim middle job.pending peer then middle
    else { middle with
      pendingJobs := middle.pendingJobs ++ [⟨middle.nextJob, peer⟩]
      nextJob := middle.nextJob + 1 }) = queued
  have same : queued.store = middle.store ∧ queued.cipherParts = switch.cipherParts ∧
      queued.cachedOpen = switch.cachedOpen ∧ queued.sent = switch.sent := by
    rw [← queuing]
    split
    · exact ⟨rfl, meets.cipherParts, meets.cachedOpen, meets.sent⟩
    · exact ⟨rfl, meets.cipherParts, meets.cachedOpen, meets.sent⟩
  obtain ⟨store, cipherParts, cachedOpen, sent⟩ := same
  have viasless : ∀ after : THSwitch, (after.store.identities peer).vias = [] →
      tryVias after peer none = after := by
    intro after none_
    simp [tryVias, none_]
  unfold openLine
  dsimp only
  rw [if_neg (by rw [identity]; simp [THIdentity.init]), queuing, identity]
  by_cases pathless : request.paths = []
  · rw [if_neg (by simp [filled.mpr pathless])]
    refine ⟨queued, ?_, ?_⟩
    · rw [viasless queued (by rw [store, identity]; rfl)]
      rfl
    · refine still queued (by rw [store]) ⟨none, ?_, by simp [pathless]⟩ (fun _ => sent)
        (absurd pathless)
      rw [store, identity]
      rfl
  · have reachable : availablePaths ≠ [] := fun none_ => pathless (filled.mp none_)
    have unlined : (queued.store.identities peer).currentLine = none := by
      rw [store, identity]
      rfl
    have lines : withCurrentLine queued peer =
        (withNewLine queued peer, queued.store.nextLine) := by
      rw [withCurrentLine, unlined]
      rfl
    have known : (withNewLine queued peer).store.identities peer =
        { middle.store.identities peer with currentLine := some queued.store.nextLine } := by
      simp [withNewLine, updateStore, Store.allocLine, store]
    have new := Handshake.lines_withNewLine queued peer
    have newParts : (withNewLine queued peer).cipherParts = switch.cipherParts := cipherParts
    have newSent : (withNewLine queued peer).sent = switch.sent := sent
    have newCached : (withNewLine queued peer).store.identityCache =
        middle.store.identityCache := by rw [← store]; rfl
    have unused : (withNewLine queued peer).cachedOpen queued.store.nextLine = none := by
      change queued.cachedOpen queued.store.nextLine = none
      rw [cachedOpen, store, meets.nextLine]
      exact told.unused
    generalize withNewLine queued peer = lined at lines known new newParts newSent newCached unused
    have keyed : IdKeyed lined.cipherParts := by rw [newParts]; exact told.keyed
    have only : (lined.store.identities peer).cipherParts =
        .single cipherSet.csid.identifier cipherSet := by rw [known, identity]
    have named : (lined.store.identities peer).hashname prim.sha256 =
        hashnameForParts prim.sha256 (some parts) := by
      rw [known, identity]
      rfl
    obtain ⟨after, sends, opens⟩ := sendOpen_opens keyed new unused only named
      (by rw [known, identity]; exact reachable) fresh
    have lookedUp : after.store.identities peer =
        { middle.store.identities peer with currentLine := some queued.store.nextLine } := by
      rw [opens.identities, known]
    rw [if_pos (by simp [reachable, Dictionary.single, Dictionary.count]), lines]
    simp only [sends, ok_bind]
    refine ⟨after, ?_, ?_⟩
    · rw [viasless after (by rw [lookedUp, identity]; rfl)]
      rfl
    · refine still after (opens.cached.trans newCached) ⟨_, lookedUp, by simp [pathless]⟩ ?_
        fun _ own held => ?_
      · rintro (none_ | absent)
        · exact (pathless none_).elim
        · exact (opens.silent (by rw [newParts]; exact absent)).trans newSent
      obtain ⟨publicLineKey, sends_⟩ := opens.sent own (by rw [newParts]; exact held)
      rw [newSent, newParts] at sends_
      exact ⟨publicLineKey, sends_⟩

end Connecting

/-! ## What the via passes on -/

section Passing
open PeerRelays (PeerSwitch peerBranch newRelay openedRelay channelLine connectPacket openChannel)
open UnreliableQueue (addressed)
variable {via : PeerSwitch} {asker target : IdentityRef} {packet : THPacket}

theorem openChannel_keeps (switch : PeerSwitch) (now ref : Nat) (leg : RelayPath.Leg) :
    ((openChannel switch now ref leg).relays ref).toIdentity = (switch.relays ref).toIdentity ∧
      ((openChannel switch now ref leg).relays ref).connectPacket =
        (switch.relays ref).connectPacket := by
  unfold openChannel
  split
  · exact ⟨rfl, rfl⟩
  · rename_i nextChannelId lined
    have elsewhere := PeerRelays.openedRelay_elsewhere switch.relays now nextChannelId ref leg
    exact ⟨elsewhere.toIdentity, elsewhere.connectPacket⟩

/-- A channel that is opened draws an id of the current line, and leaves the line. -/
theorem openChannel_current (switch : PeerSwitch) (now ref : Nat) (leg : RelayPath.Leg)
    (identity : IdentityRef) :
    ((openChannel switch now ref leg).identities identity).currentLine.isSome =
      (switch.identities identity).currentLine.isSome := by
  unfold openChannel
  split
  · rfl
  · rename_i nextChannelId lined
    by_cases same : identity = (switch.relays ref).toIdentity leg
    · rw [same, lined]
      simp [channelLine, PeerSwitch.updateIdentity]
    · simp [channelLine, PeerSwitch.updateIdentity, PeerSwitch.updateRelay, same]

/-- The new channel to an identity with a line has sent the connect packet. -/
theorem connectChannel_openChannel {switch : PeerSwitch} {ref now : Nat}
    (new : (switch.relays ref).connectChannel = UnreliableChannel.initToIdentity 0 .application)
    (current : (switch.identities ((switch.relays ref).toIdentity .connect)).currentLine.isSome) :
    ∃ connectId, ((openChannel switch now ref .connect).relays ref).connectChannel.outbox =
      [addressed connectId (switch.relays ref).connectPacket] := by
  obtain ⟨nextChannelId, lined⟩ := Option.isSome_iff_exists.mp current
  refine ⟨(switch.relays ref).openId .connect nextChannelId, ?_⟩
  unfold openChannel
  rw [lined]
  dsimp only
  rw [PeerRelays.channelLine_relays, Function.update_self]
  change (({ (switch.relays ref).connectChannel with
    channelId := (switch.relays ref).openId .connect nextChannelId }.setState .opened).sendPacket
      now (switch.relays ref).connectPacket).outbox = _
  rw [new]
  rfl

/-- The via makes a connect of the request, which goes out to the target at once. -/
theorem peerBranch_passes {parts : Parts} {hashname : String}
    (named : packet.objectForKey "peer" = some (.string hashname))
    (lined : via.lineToHashname (some hashname) = some target)
    (current : (via.identities target).currentLine.isSome)
    (known : (via.identities asker).parts = some parts) (now channelId : Nat) :
    ∃ viaAfter connectId, peerBranch via now asker channelId packet = .ok viaAfter ∧
      (viaAfter.relays via.nextRelay).toIdentity .connect = target ∧
      (viaAfter.relays via.nextRelay).connectChannel.outbox =
        [addressed connectId (connectPacket parts packet)] := by
  simp only [peerBranch, named, readText, ok_bind, lined, known, pure_eq_ok]
  generalize made_ : newRelay asker target channelId (connectPacket parts packet) = made
  generalize switch_ : PeerSwitch.mk via.identities via.openLines
    (Function.update via.relays via.nextRelay made) (via.nextRelay + 1) via.pendingJobs
    via.handed = switch
  have relay : switch.relays via.nextRelay = made := by
    rw [← switch_]
    exact Function.update_self _ _ _
  have reached : (switch.identities target).currentLine.isSome := by
    rw [← switch_]
    exact current
  have still := openChannel_current switch now via.nextRelay .peer target
  obtain ⟨toIdentity, packet_⟩ := openChannel_keeps switch now via.nextRelay .peer
  have channel := (PeerRelays.openChannel_other switch now via.nextRelay .peer).2.1
  generalize openChannel switch now via.nextRelay .peer = opened at *
  rw [relay, ← made_] at toIdentity packet_ channel
  have towards : (opened.relays via.nextRelay).toIdentity .connect = target := by
    rw [toIdentity]
    rfl
  obtain ⟨connectId, sent⟩ := @connectChannel_openChannel opened via.nextRelay now channel
    (by rw [towards, still]; exact reached)
  refine ⟨_, connectId, rfl, ?_, ?_⟩
  · rw [(openChannel_keeps opened now via.nextRelay .connect).1]
    exact towards
  · rw [sent, packet_]
    rfl

end Passing

section Whole
open PeerRelays (PeerSwitch peerBranch connectPacket)
open UnreliableQueue (addressed)
variable {prim : Primitives} {order : ByteOrder} {asking : Asking} {drawn channelId : Nat}
  {csid : String} {chosen : THCipherSet} {packet : THPacket}

/-- The paths of the asking switch that a peer request tells. -/
def toldPaths (order : ByteOrder) (asking : Asking) : List THIPV4Path :=
  asking.paths.availablePaths.filter fun path => !isLocal order path

/-- The request names the identity that is looked for and carries the chosen key and the
paths that are not local. -/
theorem peerPacket_fields (reachable : ∀ path ∈ asking.paths.availablePaths, Tellable order path)
    (suggested : asking.suggestedCipherSet = some csid)
    (held : asking.cipherParts.lookup csid = some chosen)
    (asked : peerPacket order asking drawn channelId = .ok (some packet)) :
    packet.objectForKey "peer" = some (.string asking.toHashname) ∧
      packet.body = some chosen.publicKey ∧
      packet.objectForKey "paths" = some (.array ((toldPaths order asking).map fun path =>
        informationJson (ipv4Information order path))) := by
  have tells : pathInformationTo order asking.paths asking.toPaths false =
      .ok ((toldPaths order asking).map (ipv4Information order)) := by
    rw [pathInformationTo, gatherInformation_eq]
    simp only [Bool.and_false, Bool.or_false]
    exact mapM_information order fun path member =>
      (reachable path (List.mem_of_mem_filter member)).ipv4
  unfold peerPacket at asked
  rw [tells, ok_bind, suggested, Option.bind_some, held] at asked
  cases asked
  refine ⟨?_, rfl, ?_⟩
  · rw [THPacket.objectForKey]
    simp [THPacket.setObject, THPacket.new, initWithJson, lookup_insert]
  · rw [THPacket.objectForKey]
    simp [THPacket.setObject, THPacket.new, initWithJson]

/-- The connect is of its type and on its channel, and has the parts of the stranger and
the paths and the body of the request. -/
structure Connects (sent packet : THPacket) (parts : Parts) (connectId : Nat) : Prop where
  type : sent.objectForKey "type" = some (.string "connect")
  channelId : sent.objectForKey "c" = some (.number connectId)
  parts : partsOf (sent.objectForKey "from") = .ok (some parts)
  paths : sent.objectForKey "paths" = packet.objectForKey "paths"
  unbridged : sent.objectForKey "bridge" = none
  body : sent.body = packet.body

theorem connects_addressed (parts : Parts) (packet : THPacket) (connectId : Nat) :
    Connects (addressed connectId (connectPacket parts packet)) packet parts connectId := by
  have named : (addressed connectId (connectPacket parts packet)).objectForKey "from" =
      some (.object (parts.entries.map fun entry => (entry.1, Json.string entry.2))) := by
    unfold addressed connectPacket THPacket.objectForKey
    cases packet.json.bind fun json => json.lookup "paths" with
    | none => simp [THPacket.setObject, THPacket.new, initWithJson, lookup_insert]
    | some paths => simp [THPacket.setObject, THPacket.new, initWithJson, lookup_insert]
  constructor
  case parts =>
    rw [named]
    exact LineInfo.partsOf_written parts
  case body => rfl
  all_goals
    unfold addressed connectPacket
    cases paths_ : packet.objectForKey "paths" with
    | none =>
        simp [THPacket.setObject, THPacket.objectForKey, THPacket.new, initWithJson, lookup_insert]
    | some paths =>
        simp [THPacket.setObject, THPacket.objectForKey, THPacket.new, initWithJson, lookup_insert]

/-- What counts of a connect is its dictionary and its body. -/
theorem connects_read {sent innerPacket : THPacket} {parts : Parts} {connectId : Nat}
    (connects : Connects sent packet parts connectId) (json : innerPacket.json = sent.json)
    (body : innerPacket.body = sent.body) : Connects innerPacket packet parts connectId := by
  have same : innerPacket.objectForKey = sent.objectForKey := by
    funext key
    rw [THPacket.objectForKey, THPacket.objectForKey, json]
  constructor
  case body => exact body.trans connects.body
  all_goals rw [same]
  case type => exact connects.type
  case channelId => exact connects.channelId
  case parts => exact connects.parts
  case paths => exact connects.paths
  case unbridged => exact connects.unbridged

/-- One switch asks for another over a via that has a line to it. The connect goes out to the
identity that was asked for. Any packet read of it there makes the stranger known, with the
paths of the request, if and only if the suggested set is the highest the stranger has: else
that switch is left as it was and ends the channel along the path the connect came on. -/
theorem introduction_iff {via : PeerSwitch} {asker target : IdentityRef} {switch : THSwitch}
    {relayIdentity : IdentityRef}
    (readable : Readable prim asking.cipherParts)
    (reachable : ∀ path ∈ asking.paths.availablePaths, Tellable order path)
    (suggested : asking.suggestedCipherSet = some csid)
    (held : asking.cipherParts.lookup csid = some chosen)
    (asked : peerPacket order asking drawn channelId = .ok (some packet))
    (known : (via.identities asker).parts = some (fingerprintParts prim.sha256 asking.cipherParts))
    (lined : via.lineToHashname (some asking.toHashname) = some target)
    (current : (via.identities target).currentLine.isSome)
    (told : Told prim switch relayIdentity (fingerprintParts prim.sha256 asking.cipherParts))
    (now : Nat) (theirOrder : ByteOrder) (stack : SockaddrIn) (relayFresh fresh : Fresh)
    (relayPeer : Option ChannelRef) (peerChannel : ChannelRef) (returnPath : Option THIPV4Path) :
    ∃ viaAfter sent, ∃ connectId : Nat,
      peerBranch via now asker channelId packet = .ok viaAfter ∧
      (via.identities ((viaAfter.relays via.nextRelay).toIdentity .connect)).hashname =
        asking.toHashname ∧
      (viaAfter.relays via.nextRelay).connectChannel.outbox = [sent] ∧
      sent.objectForKey "type" = some (.string "connect") ∧
      sent.objectForKey "c" = some (.number connectId) ∧
      ∀ innerPacket : THPacket, innerPacket.json = sent.json → innerPacket.body = sent.body →
        if Highest asking.cipherParts csid then
          ∃ after, handleConnect prim theirOrder stack switch relayFresh fresh relayPeer
              relayIdentity peerChannel innerPacket returnPath = .ok (after, none) ∧
            Introduced prim switch after fresh peerChannel
              (fingerprintParts prim.sha256 asking.cipherParts)
              ⟨chosen.csid, chosen.publicKey, none⟩
              ((toldPaths order asking).map (keptPath order))
        else
          handleConnect prim theirOrder stack switch relayFresh fresh relayPeer relayIdentity
              peerChannel innerPacket returnPath =
            .ok (switch, returnPath.map fun _ => closePacket (.number connectId)) := by
  obtain ⟨named, body, paths⟩ := peerPacket_fields reachable suggested held asked
  obtain ⟨viaAfter, connectId, passed, toIdentity, sent⟩ :=
    peerBranch_passes named lined current known now channelId
  have connects := connects_addressed
    (fingerprintParts prim.sha256 asking.cipherParts) packet connectId
  generalize addressed connectId (connectPacket
    (fingerprintParts prim.sha256 asking.cipherParts) packet) = brought at sent connects
  refine ⟨viaAfter, brought, connectId, passed, ?_, sent, connects.type, connects.channelId, ?_⟩
  · rw [toIdentity]
    have found := List.find?_some lined
    simpa using found
  · intro innerPacket json read
    replace connects := connects_read connects json read
    have bodied : innerPacket.body = some chosen.publicKey := connects.body.trans body
    split
    · rename_i highest
      have set := connectSet_highest readable held highest
      have belongs := keyMatches_held readable held
      obtain ⟨offers, read, kept⟩ := @connectOffers_told order theirOrder stack _ innerPacket
        (fun path member => reachable path (List.mem_of_mem_filter member))
        (connects.paths.trans paths) connects.unbridged returnPath
      rw [← bodied] at set
      have made := identityFromParts_new prim.sha256 told.stranger belongs
      let request : Connect :=
        ⟨innerPacket, offers.map (keptPath theirOrder), relayIdentity, peerChannel⟩
      have told_ : Told prim switch request.relayIdentity _ := told
      obtain ⟨after, opens, introduced_⟩ := openLine_met told_ meets_met fresh
      refine ⟨after, ?_, kept ▸ introduced_⟩
      unfold handleConnect
      simp only [connects.parts, set, ok_bind, connectIdentity, made, read]
      rw [connect_stranger told connects.parts set belongs relayFresh fresh relayPeer, opens]
      rfl
    · rename_i lower
      obtain ⟨made, set, foreign⟩ := connectSet_lower readable held lower
      rw [← bodied] at set
      unfold handleConnect
      simp only [connects.parts, set, ok_bind, connectIdentity,
        identityFromParts_foreign prim.sha256 told.stranger foreign, connects.channelId,
        pure_eq_ok]

/-! ## A stranger of two sets -/

def introductionPrimitives : Primitives :=
  { LineKeys.addingPrimitives with
    beyond := List.replicate publicKeyBytes 0
    rsaLoad := some }

/-- The sets of the stranger. -/
def strangerParts : CipherParts :=
  (Dictionary.single "2a" ⟨.cs2a, [1], some [1]⟩).insert "3a"
    ⟨.cs3a, List.replicate publicKeyBytes 3, some (List.replicate publicKeyBytes 3)⟩

def strangerAsking : Asking where
  cipherParts := strangerParts
  paths := ⟨false, []⟩
  toHashname := "b"
  toPaths := ⟨false, []⟩
  suggestedCipherSet := some "2a"

/-- One of the two paths is not told, as it is local. -/
def strangerOffering (csid : String) : Asking :=
  { strangerAsking with
    paths := ⟨false, [PathChoice.outsidePath, PathChoice.homePath]⟩
    suggestedCipherSet := some csid }

def strangerRequest (csid : String) : THPacket :=
  ((peerPacket .littleEndian (strangerOffering csid) 3 5).toOption.getD none).getD THPacket.new

/-- The via knows the stranger by its parts and has a line to the other. -/
def introducing : PeerSwitch where
  identities ref := if ref = 0 then ⟨"a", some (fingerprintParts id strangerParts), .empty, some 1⟩
    else ⟨"b", none, .empty, some 9⟩
  openLines := [0, 1]
  relays := fun _ => PeerRelays.newRelay 0 0 0 THPacket.new
  nextRelay := 0
  pendingJobs := []
  handed := fun _ _ => []

/-- The one that is looked for, with one set and a line to the via. -/
def looking (cipherSet : THCipherSet) : THSwitch where
  store :=
    { Store.start with
      identities := fun _ => { THIdentity.init with currentLine := some 0 }
      nextIdentity := 1
      nextLine := 1 }
  hashname := "b"
  cipherParts := .single cipherSet.csid.identifier cipherSet
  openLines := .empty
  pendingJobs := []
  nextJob := 0
  cachedOpen := fun _ => none
  sent := []

theorem stranger_readable : Readable introductionPrimitives strangerParts := by
  have sets : ∀ id cipherSet, strangerParts.lookup id = some cipherSet →
      id = "2a" ∧ cipherSet = ⟨.cs2a, [1], some [1]⟩ ∨ id = "3a" ∧ cipherSet =
        ⟨.cs3a, List.replicate publicKeyBytes 3, some (List.replicate publicKeyBytes 3)⟩ := by
    intro id cipherSet found
    have member := (lookup_some_iff _ _ _).mp found
    simpa [strangerParts, Dictionary.single, Dictionary.insert, put] using member
  constructor
  case keyed =>
    intro id cipherSet found
    rcases sets id cipherSet found with ⟨rfl, rfl⟩ | ⟨rfl, rfl⟩ <;> rfl
  case loads =>
    intro id cipherSet found
    rcases sets id cipherSet found with ⟨rfl, rfl⟩ | ⟨rfl, rfl⟩ <;> rfl
  case apart =>
    intro one other foundOne foundOther
    cases Option.some.inj ((show strangerParts.lookup "2a" = some _ from rfl).symm.trans foundOne)
    cases Option.some.inj ((show strangerParts.lookup "3a" = some _ from rfl).symm.trans foundOther)
    decide

theorem told_looking (cipherSet : THCipherSet) :
    Told introductionPrimitives (looking cipherSet) 0
      (fingerprintParts introductionPrimitives.sha256 strangerParts) :=
  ⟨rfl, SwitchSound.idKeyed_single cipherSet, Nat.zero_lt_one, rfl, rfl⟩

theorem stranger_reachable : ∀ path ∈ [PathChoice.outsidePath, PathChoice.homePath],
    Tellable .littleEndian path := by
  simp only [List.mem_cons, List.not_mem_nil, or_false, forall_eq_or_imp, forall_eq]
  exact ⟨⟨rfl, by decide, by decide⟩, ⟨rfl, by decide, by decide⟩⟩

/-- Asked for by its 3a key the stranger is known, with its outside path, and is sent an open;
by its 2a key it stays unknown. -/
theorem introduction_iff_stranger :
    (∃ viaAfter sent after, peerBranch introducing 0 0 5 (strangerRequest "3a") = .ok viaAfter ∧
      (viaAfter.relays 0).connectChannel.outbox = [sent] ∧
      handleConnect introductionPrimitives .littleEndian ⟨afInet, 0, ⟨0, 0, 0, 0⟩⟩
          (looking ⟨.cs3a, [2], some [2]⟩) SwitchRuns.drawn SwitchRuns.drawn none 0 0 sent
          (some PathChoice.outsidePath) = .ok (after, none) ∧
      (after.store.identities 1).availablePaths =
        [keptPath .littleEndian PathChoice.outsidePath] ∧
      after.sent.length = 1) ∧
    ∃ viaAfter sent, ∃ connectId : Nat,
      peerBranch introducing 0 0 5 (strangerRequest "2a") = .ok viaAfter ∧
      (viaAfter.relays 0).connectChannel.outbox = [sent] ∧
      handleConnect introductionPrimitives .littleEndian ⟨afInet, 0, ⟨0, 0, 0, 0⟩⟩
          (looking ⟨.cs2a, [2], some [2]⟩) SwitchRuns.drawn SwitchRuns.drawn none 0 0 sent
          (some PathChoice.outsidePath) =
        .ok (looking ⟨.cs2a, [2], some [2]⟩, some (closePacket (.number connectId))) := by
  constructor
  · have higher : Highest strangerParts "3a" := by decide
    obtain ⟨viaAfter, sent, _, passed, _, out, _, _, read⟩ := @introduction_iff
      introductionPrimitives .littleEndian (strangerOffering "3a") 3 5 "3a" _ (strangerRequest "3a")
      introducing 0 1 (looking ⟨.cs3a, [2], some [2]⟩) 0 stranger_readable stranger_reachable rfl
      rfl rfl rfl rfl rfl (told_looking _) 0 .littleEndian ⟨afInet, 0, ⟨0, 0, 0, 0⟩⟩
      SwitchRuns.drawn SwitchRuns.drawn none 0 (some PathChoice.outsidePath)
    obtain ⟨after, connected, introduced_⟩ := (if_pos higher).mp (read sent rfl rfl)
    have one : (toldPaths .littleEndian (strangerOffering "3a")).map (keptPath .littleEndian) =
        [keptPath .littleEndian PathChoice.outsidePath] := by decide
    rw [one] at introduced_
    obtain ⟨publicLineKey, opened⟩ :=
      introduced_.opens (List.cons_ne_nil _ _) ⟨.cs3a, [2], some [2]⟩ rfl
    refine ⟨viaAfter, sent, after, passed, out, connected, introduced_.ways, ?_⟩
    rw [opened]
    rfl
  · have lower : ¬ Highest strangerParts "2a" := by decide
    obtain ⟨viaAfter, sent, connectId, passed, _, out, _, _, read⟩ := @introduction_iff
      introductionPrimitives .littleEndian (strangerOffering "2a") 3 5 "2a" _ (strangerRequest "2a")
      introducing 0 1 (looking ⟨.cs2a, [2], some [2]⟩) 0 stranger_readable stranger_reachable rfl
      rfl rfl rfl rfl rfl (told_looking _) 0 .littleEndian ⟨afInet, 0, ⟨0, 0, 0, 0⟩⟩
      SwitchRuns.drawn SwitchRuns.drawn none 0 (some PathChoice.outsidePath)
    exact ⟨viaAfter, sent, connectId, passed, out, (if_neg lower).mp (read sent rfl rfl)⟩

end Whole

end Telehash.Introduction
