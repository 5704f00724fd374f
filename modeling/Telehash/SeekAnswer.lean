import Telehash.SeeStrings
import Telehash.SeekCompletion

/-!
The seek branch of THLine.m, which answers the query of a PendingSeekJob, and searches that
are answered so. A line of the answer is written with a cipher set of the sought identity, so
a switch without a key of it names nobody; one that has linked to it names it unless five of
its bucket are put before it.
-/

namespace Telehash.SeekAnswer
open Association Foundation Packet CipherSet Identity Switch Distance MeshBuckets Placement
open PendingSeek SeeStrings KeyOrder Runs SeekRuns SeekCompletion

/-- The identities of a switch that answers, with its routing table. -/
structure Answering where
  -- what lies behind its strings in memory
  beyond : Data
  mesh : Mesh
  identities : IdentityRef → AddressedIdentity
  identityCache : Dictionary String IdentityRef
  nextIdentity : IdentityRef

def Answering.newIdentity (switch : Answering) (hashname : String) : Answering :=
  { switch with
    mesh := switch.mesh.updatePeer switch.nextIdentity fun _ => withHashname hashname
    identities := Function.update switch.identities switch.nextIdentity
      { THIdentity.init with
        hashnameCache := some hashname
        address := none }
    identityCache := switch.identityCache.insert hashname switch.nextIdentity
    nextIdentity := switch.nextIdentity + 1 }

/-- `identityFromHashname:` of the switch that answers. -/
def Answering.identityFor (switch : Answering) (hashname : String) : IdentityRef × Answering :=
  match switch.identityCache.lookup hashname with
  | some identity => (identity, switch)
  | none => (switch.nextIdentity, switch.newIdentity hashname)

def seekResponse (channelId : Nat) (sees : List String) : THPacket :=
  ((THPacket.new.setObject (.bool true) "end").setObject (.number channelId) "c").setObject
    (.array (sees.map Json.string)) "see"

section Source
variable (sha256 : Data → Data)

/-- The branch for a packet of type seek: the switch behind it and what is sent. -/
def seekBranch (switch : Answering) (channelId : Nat) (innerPacket : THPacket) :
    Except Fault (Answering × THPacket) := do
  match ← readText (innerPacket.objectForKey "seek") with
  | none => .error .nilArgument
  | some hashname =>
      let (identity, known) := switch.identityFor hashname
      let seeIdentities ← closeInBucket known.beyond stableSort known.mesh identity
      let sees := seeIdentities.filterMap fun seeIdentity =>
        seekStringForIdentity sha256 (known.identities seeIdentity)
          (known.identities identity).toTHIdentity
      return (known, seekResponse channelId sees)

/-- The packet a query is opened with, as its channel sends it. -/
def seekPacket (hashname : String) (channelId : Nat) : THPacket :=
  ((THPacket.new.setObject (.string hashname) "seek").setObject (.string "seek") "type").setObject
    (.number channelId) "c"

end Source

/-! ## The switch that answers -/

/-- A routing table around a hashname, of identities that are called the same in both records
and hold sets of the two kinds alone. -/
structure Settled (sha256 : Data → Data) (localHashname : String) (switch : Answering) : Prop where
  own : IsHashname localHashname
  placed : Placed switch.beyond localHashname switch.mesh
  hashnames : ∀ ref < switch.nextIdentity,
    (switch.identities ref).hashname sha256 = switch.mesh.hashname ref
  listed : ∀ ref ∈ switch.mesh.table.buckets.flatten, ref < switch.nextIdentity
  cached : ∀ hashname ref, switch.identityCache.lookup hashname = some ref →
    ref < switch.nextIdentity ∧ switch.mesh.hashname ref = hashname
  ids : ∀ ref < switch.nextIdentity, ∀ id ∈ (switch.identities ref).cipherParts.keys,
    id = "2a" ∨ id = "3a"

/-- The distance of an identity of the table from a sought hashname. -/
def Answering.distanceOf (switch : Answering) (hashname : String) (ref : IdentityRef) : Int :=
  (distanceFrom switch.beyond hashname (switch.mesh.hashname ref)).toOption.getD 0

/-- The table has the sought identity, with a set in common with the one that is cached for it,
and of its bucket fewer than five are put before it. -/
structure Holds (localHashname : String) (switch : Answering) (hashname : String)
    (ref : IdentityRef) : Prop where
  named : switch.mesh.hashname ref = hashname
  taken : ∃ bucket,
    switch.mesh.table.buckets[home switch.beyond localHashname hashname]? = some bucket ∧
      ref ∈ bucket ∧ placeOf (switch.distanceOf hashname) bucket ref < 5
  shared : ∃ cached csid, switch.identityCache.lookup hashname = some cached ∧
    Shared (switch.identities ref).toTHIdentity (switch.identities cached).toTHIdentity csid

/-- The switch has a key of the hashname. -/
def HoldsKey (switch : Answering) (hashname : String) : Prop :=
  ∃ cached, switch.identityCache.lookup hashname = some cached ∧
    (switch.identities cached).cipherParts.keys ≠ []

/-- What looking up the sought identity leaves as it was. -/
structure Known (switch known : Answering) (hashname : String) (identity : IdentityRef) :
    Prop where
  made : identity < known.nextIdentity
  named : known.mesh.hashname identity = hashname
  beyond : known.beyond = switch.beyond
  table : known.mesh.table = switch.mesh.table
  hashnames : ∀ ref < switch.nextIdentity, known.mesh.hashname ref = switch.mesh.hashname ref
  identities : ∀ ref < switch.nextIdentity, known.identities ref = switch.identities ref
  keys : ∀ csid, csid ∈ (known.identities identity).cipherParts.keys ↔
    ∃ cached, switch.identityCache.lookup hashname = some cached ∧
      csid ∈ (switch.identities cached).cipherParts.keys

section Looked
variable {sha256 : Data → Data} {localHashname : String} {switch : Answering}

theorem placed_hashnames {beyond : Data} {mesh after : Mesh}
    (placed : Placed beyond localHashname mesh) (table : after.table = mesh.table)
    (hashnames : ∀ ref ∈ mesh.table.buckets.flatten, after.hashname ref = mesh.hashname ref) :
    Placed beyond localHashname after where
  own := by rw [table]; exact placed.own
  count := by rw [table]; exact placed.count
  named ref member := by
    rw [table] at member
    rw [hashnames ref member]
    exact placed.named ref member
  atHome := by
    rw [table]
    intro index bucket found ref member
    rw [hashnames ref (Buckets.mem_flatten_of_found found member)]
    exact placed.atHome index bucket found ref member
  distinct := by
    rw [table]
    have same : mesh.table.buckets.flatten.map after.hashname =
        mesh.table.buckets.flatten.map mesh.hashname := List.map_congr_left hashnames
    unfold Buckets.Distinct
    rw [same]
    exact placed.distinct

theorem hashname_newIdentity (switch : Answering) (hashname : String) :
    (switch.newIdentity hashname).mesh.hashname switch.nextIdentity = hashname := by
  simp [Answering.newIdentity, Mesh.hashname, Mesh.updatePeer, withHashname]

theorem newIdentity_old (switch : Answering) (hashname : String) {ref : IdentityRef}
    (made : ref < switch.nextIdentity) :
    (switch.newIdentity hashname).mesh.hashname ref = switch.mesh.hashname ref ∧
      (switch.newIdentity hashname).identities ref = switch.identities ref := by
  simp [Answering.newIdentity, Mesh.hashname, Mesh.updatePeer, Nat.ne_of_lt made]

theorem settled_newIdentity (settled : Settled sha256 localHashname switch) (hashname : String) :
    Settled sha256 localHashname (switch.newIdentity hashname) := by
  have new := hashname_newIdentity switch hashname
  have made : (switch.newIdentity hashname).identities switch.nextIdentity =
      { THIdentity.init with
        hashnameCache := some hashname
        address := none } := Function.update_self _ _ _
  refine ⟨settled.own, ?_, ?_, ?_, ?_, ?_⟩
  · exact placed_hashnames settled.placed rfl fun ref member =>
      (newIdentity_old switch hashname (settled.listed ref member)).1
  · intro ref inside
    rcases Nat.lt_succ_iff_lt_or_eq.mp inside with before | rfl
    · obtain ⟨named, same⟩ := newIdentity_old switch hashname before
      rw [named, same]
      exact settled.hashnames ref before
    · rw [new, made]
      rfl
  · exact fun ref member => Nat.lt_succ_of_lt (settled.listed ref member)
  · intro other ref held
    unfold Answering.newIdentity at held
    dsimp only at held
    rw [lookup_insert] at held
    split at held
    · rename_i same
      cases held
      exact ⟨Nat.lt_succ_self _, new.trans same.symm⟩
    · obtain ⟨inside, named⟩ := settled.cached other ref held
      exact ⟨Nat.lt_succ_of_lt inside, (newIdentity_old switch hashname inside).1.trans named⟩
  · intro ref inside id member
    rcases Nat.lt_succ_iff_lt_or_eq.mp inside with before | rfl
    · rw [(newIdentity_old switch hashname before).2] at member
      exact settled.ids ref before id member
    · rw [made] at member
      cases member

theorem identityFor_known (settled : Settled sha256 localHashname switch) (hashname : String) :
    Settled sha256 localHashname (switch.identityFor hashname).2 ∧
      Known switch (switch.identityFor hashname).2 hashname (switch.identityFor hashname).1 := by
  unfold Answering.identityFor
  split
  · rename_i identity found
    obtain ⟨made, named⟩ := settled.cached hashname identity found
    refine ⟨settled, made, named, rfl, rfl, fun _ _ => rfl, fun _ _ => rfl, fun csid => ?_⟩
    constructor
    · exact fun member => ⟨identity, found, member⟩
    · rintro ⟨cached, same, member⟩
      cases found.symm.trans same
      exact member
  · rename_i none_
    refine ⟨settled_newIdentity settled hashname, Nat.lt_succ_self _,
      hashname_newIdentity switch hashname, rfl, rfl,
      fun ref made => (newIdentity_old switch hashname made).1,
      fun ref made => (newIdentity_old switch hashname made).2, fun csid => ?_⟩
    constructor
    · intro member
      have made : (switch.newIdentity hashname).identities switch.nextIdentity =
          { THIdentity.init with
            hashnameCache := some hashname
            address := none } := Function.update_self _ _ _
      rw [made] at member
      cases member
    · rintro ⟨cached, found, _⟩
      cases none_.symm.trans found

end Looked

/-! ## The lines of an answer -/

section Lines
variable {sha256 : Data → Data} {localHashname : String} {switch : Answering}

theorem comma_not_mem_hashname {hashname : String} (named : IsHashname hashname) :
    ',' ∉ hashname.toList := fun member => by
  have digit := named.digits ',' member
  revert digit
  decide

/-- A line begins with the hashname and an id and has two fields more or none. -/
theorem seekString_fields (settled : Settled sha256 localHashname switch) {ref : IdentityRef}
    (made : ref < switch.nextIdentity) (named : IsHashname (switch.mesh.hashname ref))
    {other : THIdentity} {text : String}
    (written : seekStringForIdentity sha256 (switch.identities ref) other = some text) :
    ∃ csid address,
      componentsSeparatedByComma text = switch.mesh.hashname ref :: csid :: address ∧
      (address = [] ∨ ∃ ip port, address = [ip, port]) := by
  have plain := comma_not_mem_hashname named
  unfold seekStringForIdentity at written
  rw [settled.hashnames ref made] at written
  dsimp only at written
  split at written
  · cases written
  · rename_i csid rest ids
    have own : csid ∈ (switch.identities ref).cipherParts.keys :=
      ((mem_sharedIds _ other csid).mp (ids ▸ List.mem_cons_self)).1
    have short : ',' ∉ csid.toList := by
      rcases settled.ids ref made csid own with rfl | rfl <;> decide
    split at written
    · cases written
      refine ⟨csid, [], components_intercalate (List.cons_ne_nil _ _) ?_, Or.inl rfl⟩
      simp [plain, short]
    · rename_i address _
      cases written
      refine ⟨csid, [_, _], components_intercalate (List.cons_ne_nil _ _) ?_, Or.inr ⟨_, _, rfl⟩⟩
      refine List.forall_mem_cons.mpr ⟨plain, List.forall_mem_cons.mpr ⟨short, ?_⟩⟩
      exact List.forall_mem_cons.mpr
        ⟨comma_not_mem_inetNtoa _, List.forall_mem_singleton.mpr (comma_not_mem_repr _)⟩

theorem seekString_isSome_iff (identity : AddressedIdentity) (other : THIdentity) :
    (∃ text, seekStringForIdentity sha256 identity other = some text) ↔
      ∃ csid, Shared identity.toTHIdentity other csid := by
  simp only [← mem_sharedIds]
  unfold seekStringForIdentity
  cases ids : sharedIds identity.cipherParts other.cipherParts with
  | nil => simp
  | cons csid rest =>
      refine iff_of_true ?_ ⟨csid, List.mem_cons_self⟩
      dsimp only
      split <;> exact ⟨_, rfl⟩

theorem closeInBucket_settled (settled : Settled sha256 localHashname switch)
    {identity : IdentityRef} (named : IsHashname (switch.mesh.hashname identity))
    {bucket : List IdentityRef}
    (found : switch.mesh.table.buckets[home switch.beyond localHashname
      (switch.mesh.hashname identity)]? = some bucket) :
    closeInBucket switch.beyond stableSort switch.mesh identity =
      .ok ((bucket.mergeSort fun one other =>
        decide (switch.distanceOf (switch.mesh.hashname identity) other ≤
          switch.distanceOf (switch.mesh.hashname identity) one)).take 5) := by
  obtain ⟨_, place, indexed⟩ :=
    @ownBucket_found switch.beyond _ _ _ settled.own settled.placed named
  rw [found] at place
  cases place
  have own : ownBucket switch.beyond switch.mesh identity = .ok bucket := by
    rw [ownBucket, localDistance_ok settled.own settled.placed named]
    exact indexed
  have known : Comparable (seekDistance switch.beyond switch.mesh identity) bucket := by
    refine Or.inr fun item member => ?_
    obtain ⟨distance, itemKnown, _⟩ :=
      Nearby.seekDistance_entry settled.own settled.placed named found member
    exact ⟨distance, itemKnown⟩
  have sorted := (sortByDistance_ok_iff _).mpr ⟨known, rfl⟩
  rw [closeInBucket_eq, own, ok_bind, sorted, ok_bind, ← List.take_eq_take_min]
  rfl

/-- The answer to a query for a hashname: a line for each of the first five of its bucket that
has a set in common with the identity cached under it. -/
theorem seekBranch_settled (settled : Settled sha256 localHashname switch) {hashname : String}
    (named : IsHashname hashname) {innerPacket : THPacket}
    (asks : innerPacket.objectForKey "seek" = some (.string hashname)) (channelId : Nat) :
    ∃ bucket after, ∃ other : THIdentity,
      switch.mesh.table.buckets[home switch.beyond localHashname hashname]? = some bucket ∧
      (∀ csid, csid ∈ other.cipherParts.keys ↔
        ∃ cached, switch.identityCache.lookup hashname = some cached ∧
          csid ∈ (switch.identities cached).cipherParts.keys) ∧
      Settled sha256 localHashname after ∧
      seekBranch sha256 switch channelId innerPacket = .ok (after, seekResponse channelId
        (((bucket.mergeSort fun one other =>
            decide (switch.distanceOf hashname other ≤ switch.distanceOf hashname one)).take
          5).filterMap fun ref => seekStringForIdentity sha256 (switch.identities ref) other)) := by
  obtain ⟨after, known⟩ := identityFor_known settled hashname
  generalize looked : switch.identityFor hashname = pair at after known
  obtain ⟨identity, found⟩ := pair
  have called : IsHashname (found.mesh.hashname identity) := known.named.symm ▸ named
  obtain ⟨bucket, place, _⟩ := @ownBucket_found found.beyond _ _ _ after.own after.placed called
  have closest := closeInBucket_settled after called place
  rw [known.named] at place closest
  have distances : ∀ ref ∈ bucket, found.distanceOf hashname ref = switch.distanceOf hashname ref ∧
      found.identities ref = switch.identities ref := by
    intro ref member
    have inside := settled.listed ref (known.table ▸ Buckets.mem_flatten_of_found place member)
    unfold Answering.distanceOf
    rw [known.beyond, known.hashnames ref inside]
    exact ⟨rfl, known.identities ref inside⟩
  have sorted : (bucket.mergeSort fun one other =>
      decide (found.distanceOf hashname other ≤ found.distanceOf hashname one)) =
      bucket.mergeSort fun one other =>
        decide (switch.distanceOf hashname other ≤ switch.distanceOf hashname one) := by
    have same : ∀ one ∈ bucket, ∀ other ∈ bucket,
        decide (found.distanceOf hashname other ≤ found.distanceOf hashname one) =
          decide (switch.distanceOf hashname (id other) ≤ switch.distanceOf hashname (id one)) := by
      intro one member other alsoMember
      rw [(distances one member).1, (distances other alsoMember).1, id_eq, id_eq]
    have mapped := @List.map_mergeSort IdentityRef IdentityRef
      (fun one other => decide (found.distanceOf hashname other ≤ found.distanceOf hashname one))
      (fun one other => decide (switch.distanceOf hashname other ≤ switch.distanceOf hashname one))
      id bucket same
    rwa [List.map_id, List.map_id] at mapped
  have perm := List.mergeSort_perm bucket fun one other =>
    decide (switch.distanceOf hashname other ≤ switch.distanceOf hashname one)
  have lines : ((bucket.mergeSort fun one other =>
      decide (switch.distanceOf hashname other ≤ switch.distanceOf hashname one)).take 5).filterMap
        (fun ref => seekStringForIdentity sha256 (found.identities ref)
          (found.identities identity).toTHIdentity) =
      ((bucket.mergeSort fun one other =>
          decide (switch.distanceOf hashname other ≤ switch.distanceOf hashname one)).take
        5).filterMap fun ref => seekStringForIdentity sha256 (switch.identities ref)
          (found.identities identity).toTHIdentity := by
    refine List.filterMap_congr fun ref member => ?_
    rw [(distances ref (perm.mem_iff.mp (List.mem_of_mem_take member))).2]
  refine ⟨bucket, found, (found.identities identity).toTHIdentity, ?_, known.keys, after, ?_⟩
  · rw [← known.beyond, ← known.table]
    exact place
  · dsimp only at closest
    simp only [seekBranch, asks, readText, ok_bind, looked, closest, sorted, lines, pure_eq_ok]

/-- A line with a hashname and an id, and two fields more or none. -/
def Line (text : String) : Prop :=
  ∃ hashname csid address, componentsSeparatedByComma text = hashname :: csid :: address ∧
    (address = [] ∨ ∃ ip port, address = [ip, port])

/-- What is in an answer: at most five lines, none without a key of the sought identity, and one
that names it exactly if the table holds it near the front. -/
theorem seekBranch_lines (settled : Settled sha256 localHashname switch) {hashname : String}
    (named : IsHashname hashname) {innerPacket : THPacket}
    (asks : innerPacket.objectForKey "seek" = some (.string hashname)) (channelId : Nat) :
    ∃ after sees, seekBranch sha256 switch channelId innerPacket =
        .ok (after, seekResponse channelId sees) ∧
      Settled sha256 localHashname after ∧ sees.length ≤ 5 ∧ (∀ text ∈ sees, Line text) ∧
      (¬ HoldsKey switch hashname → sees = []) ∧
      ((sees.map Json.string).any (entryNames hashname) = true ↔
        ∃ ref, Holds localHashname switch hashname ref) := by
  obtain ⟨bucket, after, other, place, keys, settledAfter, answered⟩ :=
    seekBranch_settled settled named asks channelId
  have perm := List.mergeSort_perm bucket fun one other =>
    decide (switch.distanceOf hashname other ≤ switch.distanceOf hashname one)
  have front := fun (ref : IdentityRef) (member : ref ∈ bucket) =>
    @mem_take_mergeSort_iff IdentityRef Int (switch.distanceOf hashname) _ bucket _ ref member 5
  have fields : ∀ ref ∈ bucket, ∀ text,
      seekStringForIdentity sha256 (switch.identities ref) other = some text →
      ∃ csid address,
        componentsSeparatedByComma text = switch.mesh.hashname ref :: csid :: address ∧
        (address = [] ∨ ∃ ip port, address = [ip, port]) := by
    intro ref inside text written
    have listed := Buckets.mem_flatten_of_found place inside
    exact seekString_fields settled (settled.listed ref listed)
      (settled.placed.named ref listed) written
  refine ⟨after, _, answered, settledAfter, ?_, ?_, ?_, ?_⟩
  · exact (List.length_filterMap_le _ _).trans (List.length_take_le _ _)
  · intro text line
    obtain ⟨ref, taken, written⟩ := List.mem_filterMap.mp line
    obtain ⟨csid, address, parts, shape⟩ :=
      fields ref (perm.mem_iff.mp (List.mem_of_mem_take taken)) text written
    exact ⟨_, csid, address, parts, shape⟩
  · intro keyless
    refine List.filterMap_eq_nil_iff.mpr fun ref _ => ?_
    cases written : seekStringForIdentity sha256 (switch.identities ref) other with
    | none => rfl
    | some text =>
        obtain ⟨csid, _, theirs⟩ := (seekString_isSome_iff _ _).mp ⟨text, written⟩
        obtain ⟨cached, found, held⟩ := (keys csid).mp theirs
        exact absurd ⟨cached, found, List.ne_nil_of_mem held⟩ keyless
  · rw [List.any_eq_true]
    constructor
    · rintro ⟨entry, member, naming⟩
      obtain ⟨text, line, rfl⟩ := List.mem_map.mp member
      obtain ⟨ref, taken, written⟩ := List.mem_filterMap.mp line
      have inside := perm.mem_iff.mp (List.mem_of_mem_take taken)
      obtain ⟨csid, address, parts, _⟩ := fields ref inside text written
      simp only [entryNames, parts, decide_eq_true_eq] at naming
      obtain ⟨shared, own, theirs⟩ := (seekString_isSome_iff _ _).mp ⟨text, written⟩
      obtain ⟨cached, found, also⟩ := (keys shared).mp theirs
      exact ⟨ref, naming, ⟨bucket, place, inside, (front ref inside).mp taken⟩,
        cached, shared, found, own, also⟩
    · rintro ⟨ref, called, ⟨_, found, inside, few⟩, cached, csid, looked, own, also⟩
      cases place.symm.trans found
      obtain ⟨text, written⟩ := (seekString_isSome_iff (switch.identities ref) other).mpr
        ⟨csid, own, (keys csid).mpr ⟨cached, looked, also⟩⟩
      obtain ⟨_, address, parts, _⟩ := fields ref inside text written
      refine ⟨.string text, List.mem_map_of_mem (List.mem_filterMap.mpr
        ⟨ref, (front ref inside).mpr few, written⟩), ?_⟩
      simp only [entryNames, parts, called, decide_true]

theorem seekResponse_json (channelId : Nat) (sees : List String) :
    ∃ json, (seekResponse channelId sees).json = some json ∧ json.lookup "err" = none ∧
      seeLines json = sees.map Json.string := by
  refine ⟨_, rfl, ?_, ?_⟩
  · simp [lookup_insert]
  · simp [seeLines]

/-- A switch in order answers every query for a hashname and stays in order. The answer names the
hashname exactly if the table holds its identity, with a key in common with what is known of it,
among the first five of the bucket. -/
theorem answer_names_iff (settled : Settled sha256 localHashname switch) {hashname : String}
    (named : IsHashname hashname) {innerPacket : THPacket}
    (asks : innerPacket.objectForKey "seek" = some (.string hashname)) (channelId : Nat) :
    ∃ after packet json, seekBranch sha256 switch channelId innerPacket = .ok (after, packet) ∧
      Settled sha256 localHashname after ∧ packet.json = some json ∧
      (seeLines json).length ≤ 5 ∧
      (names hashname json = true ↔ ∃ ref, Holds localHashname switch hashname ref) := by
  obtain ⟨after, sees, answered, settledAfter, few, _, _, naming⟩ :=
    seekBranch_lines settled named asks channelId
  obtain ⟨json, written, _, lines⟩ := seekResponse_json channelId sees
  refine ⟨after, _, json, answered, settledAfter, written, ?_, ?_⟩
  · rw [lines, List.length_map]
    exact few
  · rw [names, lines]
    exact naming

end Lines

/-! A switch that has linked to the far identity, and the same one without a key of it. -/

def answerer : Answering where
  beyond := []
  mesh :=
    { table := { THMeshBuckets.init (some remoteHashname) with
        buckets := (List.replicate 256 []).set 255 [0] }
      peers := fun _ => linkedPeer farHashname
      asked := [] }
  identities := fun _ =>
    { THIdentity.init with
      hashnameCache := some farHashname
      cipherParts := .single "2a" ⟨.cs2a, [], none⟩
      address := none }
  identityCache := .single farHashname 0
  nextIdentity := 1

def keylessAnswerer : Answering := { answerer with identityCache := .empty }

theorem placed_answerer : Placed [] remoteHashname answerer.mesh where
  own := rfl
  count := by decide +kernel
  named _ _ := farHashname_is
  atHome index bucket found ref member := by
    have here : home [] remoteHashname farHashname = 255 := by decide +kernel
    by_cases same : index = 255
    · exact here.trans same.symm
    · rw [answerer, List.getElem?_set_ne (Ne.symm same), List.getElem?_replicate] at found
      split at found
      · cases found
        cases member
      · cases found
  distinct := by
    unfold Buckets.Distinct
    have only : answerer.mesh.table.buckets.flatten = [0] := by decide +kernel
    rw [only]
    exact List.nodup_singleton _

theorem settled_answerer : Settled (fun _ => []) remoteHashname answerer where
  own := remoteHashname_is
  placed := placed_answerer
  hashnames _ _ := rfl
  listed ref member := by
    have only : answerer.mesh.table.buckets.flatten = [0] := by decide +kernel
    rw [only] at member
    rw [List.mem_singleton.mp member]
    exact Nat.one_pos
  cached hashname ref held := by
    obtain ⟨rfl, rfl⟩ := Prod.mk.inj (List.mem_singleton.mp ((lookup_some_iff _ _ _).mp held))
    exact ⟨Nat.one_pos, rfl⟩
  ids _ _ _ member := Or.inl (List.mem_singleton.mp member)

theorem settled_keylessAnswerer : Settled (fun _ => []) remoteHashname keylessAnswerer :=
  { settled_answerer with
    cached := fun _ _ held => by cases held }

theorem holds_answerer : Holds remoteHashname answerer farHashname 0 where
  named := rfl
  taken := ⟨[0], by decide +kernel, List.mem_cons_self, by decide +kernel⟩
  shared := ⟨0, "2a", rfl, List.mem_cons_self, List.mem_cons_self⟩

theorem answer_names_linked :
    ∃ after packet json, seekBranch (fun _ => []) answerer 9 (seekPacket farHashname 9) =
        .ok (after, packet) ∧
      Settled (fun _ => []) remoteHashname after ∧ packet.json = some json ∧
      (seeLines json).length ≤ 5 ∧
      (names farHashname json = true ↔ ∃ ref, Holds remoteHashname answerer farHashname ref) :=
  answer_names_iff settled_answerer farHashname_is rfl 9

/-! ## Searches among such switches -/

section Searches
variable (sha256 : Data → Data)

/-- What a switch sends for the query of a search. -/
def response (hashname : String) (switch : Answering) (channelId : Nat) : JsonDictionary :=
  match seekBranch sha256 switch channelId (seekPacket hashname channelId) with
  | .ok (_, packet) => packet.json.getD .empty
  | .error _ => .empty

inductive Heard where
  -- the switch with this hashname answers a query
  | answer (query : Nat) (localHashname : String) (switch : Answering) (channelId : Nat)
  | pathChange (identity : IdentityRef) (hasActivePath : Bool)
  | discovered (hashname : String)

def Heard.event (hashname : String) : Heard → SeekRuns.Event
  | .answer query _ switch channelId =>
      .response query (response sha256 hashname switch channelId)
  | .pathChange identity hasActivePath => .pathChange identity hasActivePath
  | .discovered hashname => .discovered hashname

variable (beyond : Data)

/-- Queries name the hashname the search has at that time. -/
def searchStep (search : Search) (heard : Heard) : Search :=
  SeekRuns.step beyond search (heard.event sha256 (sought search.seek))

def FromSettled : Heard → Prop
  | .answer _ localHashname switch _ => Settled sha256 localHashname switch
  | _ => True

/-- A switch that holds the sought identity answers a query that is open. -/
def Finds (search : Search) : Heard → Prop
  | .answer query localHashname switch _ => (responder search query).isSome ∧
      ∃ ref, Holds localHashname switch (sought search.seek) ref
  | _ => False

variable {sha256} {localHashname : String} {switch : Answering} {hashname : String}

theorem readableLines_fine (hasTransport : Bool) (hashname : String) {texts : List String}
    (fine : ∀ text ∈ texts, Line text) :
    readableLines hasTransport hashname (texts.map Json.string) = true := by
  induction texts with
  | nil => rfl
  | cons text rest ih =>
      obtain ⟨first, others⟩ := List.forall_mem_cons.mp fine
      obtain ⟨_, csid, address, fields, rfl | ⟨ip, port, rfl⟩⟩ := first
      · simp [readableLines, readable, fields, ih others]
      · simp [readableLines, readable, fields, ih others]

/-- Of an answer a job reads every line. -/
theorem response_settled (settled : Settled sha256 localHashname switch)
    (named : IsHashname hashname) (channelId : Nat) (hasTransport : Bool) :
    let packet := response sha256 hashname switch channelId
    packet.lookup "err" = none ∧
      readableLines hasTransport hashname (seeLines packet) = true ∧
      (names hashname packet = true ↔ ∃ ref, Holds localHashname switch hashname ref) ∧
      (¬ HoldsKey switch hashname → seeLines packet = []) := by
  have asks : (seekPacket hashname channelId).objectForKey "seek" = some (.string hashname) := by
    simp [seekPacket, THPacket.objectForKey, THPacket.setObject, THPacket.new, initWithJson,
      lookup_insert]
  obtain ⟨after, sees, answered, _, _, fine, keyless, naming⟩ :=
    seekBranch_lines settled named asks channelId
  obtain ⟨json, written, clean, lines⟩ := seekResponse_json channelId sees
  have same : response sha256 hashname switch channelId = json := by
    rw [response, answered]
    simp [written]
  intro packet
  unfold packet
  rw [same]
  refine ⟨clean, ?_, ?_, fun without => by rw [lines, keyless without]; rfl⟩
  · rw [lines]
    exact readableLines_fine hasTransport hashname fine
  · rw [names, lines]
    exact naming

theorem sought_step {search : Search} (sound : Sound search.seek) (event : SeekRuns.Event) :
    sought (SeekRuns.step beyond search event).seek = sought search.seek := by
  cases event with
  | response query packet =>
      rcases step_response beyond search query packet with
        ⟨_, same⟩ | ⟨identity, _, ⟨after, received, same⟩ | ⟨_, _, same⟩⟩
      · rw [same]
      · obtain ⟨seen, adds, outcome⟩ := receive_spec beyond sound received
        have kept := sought_kept adds.kept sound.seeking
        rw [same]
        split at outcome
        · rw [outcome]
          exact kept
        · exact (sought_kept outcome.kept adds.sound.seeking).trans kept
      · rw [same]
        rfl
  | pathChange identity hasActivePath =>
      exact sought_kept (pathChange_moves beyond sound identity hasActivePath).kept sound.seeking
  | discovered hashname =>
      exact sought_kept (discovered_moves beyond sound hashname).kept sound.seeking

/-- The completion is called by the answers of switches that hold the sought identity. -/
theorem searchStep_completed {search : Search} (calls : Calls search)
    (named : IsHashname (sought search.seek)) {heard : Heard}
    (settled : FromSettled sha256 heard) :
    (searchStep sha256 beyond search heard).seek.completed ≠ [] ↔
      search.seek.completed ≠ [] ∨ Finds search heard := by
  have naming : Naming search (heard.event sha256 (sought search.seek)) ↔ Finds search heard := by
    cases heard with
    | answer query localHashname switch channelId =>
        exact and_congr_right fun _ => (response_settled settled named channelId false).2.2.1
    | pathChange | discovered => exact Iff.rfl
  have fine : Naming search (heard.event sha256 (sought search.seek)) →
      WellFormed search (heard.event sha256 (sought search.seek)) := by
    intro names
    cases heard with
    | answer query localHashname switch channelId =>
        obtain ⟨clean, read, _⟩ :=
          response_settled settled named channelId search.seek.hasTransport
        exact ⟨clean, read⟩
    | pathChange | discovered => exact names
  rw [← naming]
  rcases (step_outcome beyond calls (heard.event sha256 (sought search.seek))).2 with
    ⟨quiet, same, _⟩ | ⟨loud, _, ⟨_, called⟩ | ⟨broken, _⟩⟩
  · rw [searchStep, same]
    exact ⟨Or.inl, fun either => either.resolve_right quiet⟩
  · rw [searchStep, called]
    exact iff_of_true (List.append_ne_nil_of_right_ne_nil _ (List.cons_ne_nil _ _)) (Or.inr loud)
  · exact absurd (fine loud) broken

/-- In every run of answers, the completion is called if and only if a switch has answered that
holds the sought identity near the front of its bucket, and always with YES. -/
theorem search_finds_iff (world : World) (seek : Seek) (heard : List Heard)
    (begun : startSeek beyond world = .ok seek) (named : IsHashname (sought seek))
    (settled : ∀ event ∈ heard, FromSettled sha256 event) :
    let search := run (searchStep sha256 beyond) (started seek) heard
    (∀ called ∈ search.seek.completed, called = true) ∧
      (search.seek.completed ≠ [] ↔ ∃ before event after, heard = before ++ event :: after ∧
        Finds (run (searchStep sha256 beyond) (started seek) before) event) := by
  obtain ⟨calls, _⟩ := calls_start begun
  have silent : (started seek).seek.completed = [] := calls.silent rfl
  have kept : ∀ search heard, FromSettled sha256 heard →
      Calls search ∧ IsHashname (sought search.seek) →
      Calls (searchStep sha256 beyond search heard) ∧
        IsHashname (sought (searchStep sha256 beyond search heard).seek) := by
    rintro search heard _ ⟨calls, named⟩
    refine ⟨step_calls beyond calls _, ?_⟩
    rw [searchStep, sought_step beyond calls.sound]
    exact named
  have along := @along_of_forall Search Heard (searchStep sha256 beyond) (FromSettled sha256)
    (started seek) heard settled
  refine ⟨(run_invariant kept (started seek) heard ⟨calls, named⟩ along).1.yes, ?_⟩
  have raised := @run_raised_iff Search Heard (searchStep sha256 beyond)
    (fun _ heard => FromSettled sha256 heard) Finds
    (fun search => Calls search ∧ IsHashname (sought search.seek))
    (fun search => search.seek.completed ≠ []) kept
    (fun search heard settled both => searchStep_completed beyond both.1 both.2 settled)
    (started seek) heard ⟨calls, named⟩ along
  rw [silent] at raised
  simpa only [ne_eq, not_true, false_or] using raised

theorem search_finds_linked :
    (run (searchStep (fun _ => []) []) (started oneQuery)
      [.answer 0 remoteHashname answerer 9]).seek.completed ≠ [] := by
  have found := (@search_finds_iff (fun _ => []) [] oneNeighbour oneQuery
    [.answer 0 remoteHashname answerer 9] startSeek_oneNeighbour farHashname_is
    (List.forall_mem_singleton.mpr settled_answerer)).2
  exact found.mpr ⟨[], _, [], rfl, rfl, 0, holds_answerer⟩

/-! ### Switches without a key -/

def Keyless (sha256 : Data → Data) (hashname : String) : Heard → Prop
  | .answer _ localHashname switch _ =>
      Settled sha256 localHashname switch ∧ ¬ HoldsKey switch hashname
  | _ => True

/-- An answer without a line adds no candidate. -/
theorem step_empty {search : Search} (sound : Sound search.seek) {query : Nat}
    {packet : JsonDictionary} (empty : seeLines packet = []) :
    Moves search.seek (SeekRuns.step beyond search (.response query packet)).seek := by
  rcases step_response beyond search query packet with
    ⟨_, same⟩ | ⟨identity, _, ⟨after, received, same⟩ | ⟨_, _, same⟩⟩
  · rw [same]
    exact moves_refl sound
  · obtain ⟨seen, adds, outcome⟩ := receive_spec beyond sound received
    have silent : names (sought search.seek) packet = false := by
      rw [names, empty]
      rfl
    have none_ : addedNames search.seek.mesh.table.localIdentity (sought search.seek) packet =
        [] := by
      rw [addedNames, empty]
      rfl
    rw [silent, if_neg Bool.false_ne_true] at outcome
    rw [none_] at adds
    obtain ⟨refs, nearby, nobody⟩ := adds.added
    have still : pool seen = pool search.seek := by
      rw [pool, pool, nearby, adds.queries, List.map_eq_nil_iff.mp nobody, List.append_nil]
    rw [same]
    exact ⟨kept_trans adds.kept outcome.kept, outcome.sound, still ▸ outcome.pool⟩
  · rw [same]
    exact moves_refl sound

theorem startSeek_few {world : World} {seek : Seek} (begun : startSeek beyond world = .ok seek) :
    (pool seek).length ≤ 3 := by
  obtain ⟨around, found, started⟩ := (bind_ok_iff _ _ _).mp begun
  let candidates := around.filter (activeFilter world)
  let taken := candidates.take (min 3 candidates.length)
  have some_ : taken.Sublist around := (List.take_sublist _ _).trans List.filter_sublist
  have sound : Sound (newSeek world taken) :=
    ⟨world.cached, world.known,
      fun identity member =>
        world.listed identity (nearby_within found identity (some_.mem member)),
      List.forall_mem_nil _⟩
  have first : (pool (newSeek world taken)).length ≤ 3 := by
    have whole : pool (newSeek world taken) = taken := List.append_nil taken
    rw [whole]
    exact (List.length_take_le _ _).trans (Nat.min_le_left _ _)
  rw [← Except.ok.inj started]
  exact (runEach_moves sound taken.length 0).pool.length_le.trans first

/-- A search that only switches without a key of the sought identity answer stays with the
candidates it began with, three at most, and calls its completion never. -/
theorem keyless_search_stays (world : World) (seek : Seek) (heard : List Heard)
    (begun : startSeek beyond world = .ok seek) (named : IsHashname (sought seek))
    (keyless : ∀ event ∈ heard, Keyless sha256 (sought seek) event) :
    let search := run (searchStep sha256 beyond) (started seek) heard
    (queries search.seek).Subperm (pool seek) ∧ (queries search.seek).length ≤ 3 ∧
      search.seek.completed = [] := by
  obtain ⟨calls, _⟩ := calls_start begun
  let Still (search : Search) : Prop :=
    Calls search ∧ sought search.seek = sought seek ∧ (pool search.seek).Subperm (pool seek) ∧
      search.seek.completed = []
  have kept : ∀ search event, Keyless sha256 (sought seek) event → Still search →
      Still (searchStep sha256 beyond search event) := by
    rintro search event keyless ⟨calls, same, inside, silent⟩
    have moves : Moves search.seek (searchStep sha256 beyond search event).seek := by
      cases event with
      | answer query localHashname switch channelId =>
          rw [← same] at keyless named
          exact step_empty beyond calls.sound
            ((response_settled keyless.1 named channelId false).2.2.2 keyless.2)
      | pathChange identity hasActivePath => exact pathChange_moves beyond calls.sound _ _
      | discovered hashname => exact discovered_moves beyond calls.sound _
    exact ⟨step_calls beyond calls _, (sought_step beyond calls.sound _).trans same,
      moves.pool.trans inside, moves.kept.completed.trans silent⟩
  have last := run_invariant kept (started seek) heard
    ⟨calls, rfl, List.Subperm.refl _, calls.silent rfl⟩ (along_of_forall _ _ keyless)
  have queried : (queries (run (searchStep sha256 beyond) (started seek) heard).seek).Subperm
      (pool seek) := (List.sublist_append_right _ _).subperm.trans last.2.2.1
  exact ⟨queried, queried.length_le.trans (startSeek_few beyond begun), last.2.2.2⟩

theorem keyless_search_alone :
    let search := run (searchStep (fun _ => []) []) (started oneQuery)
      [.answer 0 remoteHashname keylessAnswerer 9]
    (queries search.seek).Subperm (pool oneQuery) ∧ (queries search.seek).length ≤ 3 ∧
      search.seek.completed = [] := by
  have keyless : ¬ HoldsKey keylessAnswerer farHashname := by
    rintro ⟨cached, found, _⟩
    cases found
  exact @keyless_search_stays (fun _ => []) [] oneNeighbour oneQuery
    [.answer 0 remoteHashname keylessAnswerer 9] startSeek_oneNeighbour farHashname_is
    (List.forall_mem_singleton.mpr ⟨settled_keylessAnswerer, keyless⟩)

end Searches

end Telehash.SeekAnswer
