import Telehash.Buckets
import Telehash.MeshBuckets

/-!
Where the identities of a routing table are. An identity's bucket is its
distance from the local identity; every route that changes the table either
adds an identity to that bucket or leaves something out.
-/

namespace Telehash.Placement
open Foundation Identity Channel Distance MeshBuckets Buckets LogDistance

variable (beyond : Data)

/-- The bucket an identity belongs to. -/
def ownBucket (mesh : Mesh) (identity : IdentityRef) : Except Fault (List IdentityRef) := do
  mesh.table.objectAtIndex (← localDistance beyond mesh identity)

/-- The index of the bucket for a hashname. -/
def home (localHashname hashname : String) : Nat :=
  (distanceFrom beyond localHashname hashname).toOption.getD 0 |>.toNat

/-- A table around one local identity whose members are named by hashnames,
each in the bucket of its distance and none twice. -/
structure Placed (localHashname : String) (mesh : Mesh) : Prop where
  own : mesh.table.localIdentity = some localHashname
  count : mesh.table.buckets.length = 256
  named : ∀ identity ∈ mesh.table.buckets.flatten, IsHashname (mesh.hashname identity)
  atHome : AtHome mesh.hashname (home beyond localHashname) mesh.table.buckets
  distinct : Distinct mesh.hashname mesh.table.buckets

variable {beyond} {localHashname : String} {mesh after : Mesh} {identity : IdentityRef}

theorem Placed.named_member (placed : Placed beyond localHashname mesh) {index : Nat}
    {bucket : List IdentityRef} (found : mesh.table.buckets[index]? = some bucket)
    (member : identity ∈ bucket) : IsHashname (mesh.hashname identity) :=
  placed.named identity (mem_flatten_of_found found member)

theorem home_eq (own : IsHashname localHashname) {hashname : String}
    (named : IsHashname hashname) :
    home beyond localHashname hashname =
      logDistance (hashValue localHashname) (hashValue hashname) := by
  rw [home, distanceFrom_hashname beyond own named]
  rfl

theorem home_lt (own : IsHashname localHashname) {hashname : String}
    (named : IsHashname hashname) : home beyond localHashname hashname < 256 := by
  rw [home_eq own named]
  exact logDistance_lt (by decide) (hashValue_lt own) (hashValue_lt named)

/-! ## One bucket -/

section Own
variable (own : IsHashname localHashname) (placed : Placed beyond localHashname mesh)
  (named : IsHashname (mesh.hashname identity))
include own placed named

theorem localDistance_ok :
    localDistance beyond mesh identity =
      .ok (home beyond localHashname (mesh.hashname identity)) := by
  rw [localDistance, placed.own, home_eq own named]
  exact distanceFrom_hashname beyond own named

theorem ownBucket_found : ∃ bucket,
    mesh.table.buckets[home beyond localHashname (mesh.hashname identity)]? = some bucket ∧
      mesh.table.objectAtIndex (home beyond localHashname (mesh.hashname identity)) =
        .ok bucket := by
  have inside : home beyond localHashname (mesh.hashname identity) < mesh.table.buckets.length := by
    rw [placed.count]
    exact home_lt own named
  refine ⟨_, List.getElem?_eq_getElem inside, ?_⟩
  rw [THMeshBuckets.objectAtIndex, if_neg (Int.not_lt.mpr (Int.natCast_nonneg _)),
    Int.toNat_natCast, List.getElem?_eq_getElem inside]

end Own

/-! ## What takes nothing in -/

/-- The table of two moments is the same one. -/
structure Keeps (after before : Mesh) : Prop where
  table : after.table = before.table
  hashnames : after.hashname = before.hashname

/-- The tables of two moments, the later with some entries left out. -/
structure Reduces (after before : Mesh) : Prop where
  own : after.table.localIdentity = before.table.localIdentity
  hashnames : after.hashname = before.hashname
  buckets : Reduced after.table.buckets before.table.buckets

theorem Keeps.refl (mesh : Mesh) : Keeps mesh mesh := ⟨rfl, rfl⟩

theorem Keeps.trans {middle : Mesh} (later : Keeps after middle) (earlier : Keeps middle mesh) :
    Keeps after mesh :=
  ⟨later.table.trans earlier.table, later.hashnames.trans earlier.hashnames⟩

instance : IsTrans Mesh Keeps := ⟨fun _ _ _ => Keeps.trans⟩

theorem Keeps.reduces (keeps : Keeps after mesh) : Reduces after mesh :=
  ⟨by rw [keeps.table], keeps.hashnames, by rw [keeps.table]; exact reduced_refl _⟩

theorem Reduces.refl (mesh : Mesh) : Reduces mesh mesh := ⟨rfl, rfl, reduced_refl _⟩

theorem Reduces.trans {middle : Mesh} (later : Reduces after middle)
    (earlier : Reduces middle mesh) : Reduces after mesh :=
  ⟨later.own.trans earlier.own, later.hashnames.trans earlier.hashnames,
    later.buckets.trans earlier.buckets⟩

instance : IsTrans Mesh Reduces := ⟨fun _ _ _ => Reduces.trans⟩

theorem Placed.reduce (placed : Placed beyond localHashname mesh) (reduces : Reduces after mesh) :
    Placed beyond localHashname after where
  own := reduces.own.trans placed.own
  count := reduces.buckets.length_eq.trans placed.count
  named := by
    intro identity member
    rw [reduces.hashnames]
    exact placed.named identity (reduces.buckets.flatten.subset member)
  atHome := by
    rw [reduces.hashnames]
    exact reduces.buckets.atHome placed.atHome
  distinct := by
    rw [reduces.hashnames]
    exact reduces.buckets.distinct placed.distinct

theorem keeps_ask (request : Request) : Keeps (mesh.ask identity request) mesh := ⟨rfl, rfl⟩

theorem keeps_updatePeer {change : Peer → Peer}
    (same : (change (mesh.peers identity)).hashname = (mesh.peers identity).hashname) :
    Keeps (mesh.updatePeer identity change) mesh := by
  refine ⟨rfl, ?_⟩
  funext other
  unfold Mesh.hashname
  dsimp only [Mesh.updatePeer]
  by_cases this_ : other = identity
  · subst this_
    rw [Function.update_self]
    exact same
  · rw [Function.update_of_ne this_]

/-- A call that raises nothing, with what it does to the mesh. -/
def Leads (related : Mesh → Mesh → Prop) (before : Mesh) (result : Except Fault Mesh) : Prop :=
  ∃ after, result = .ok after ∧ related after before

theorem leads_ok {related : Mesh → Mesh → Prop} (holds : related after mesh) :
    Leads related mesh (.ok after) := ⟨after, rfl, holds⟩

theorem Leads.bind {related : Mesh → Mesh → Prop} [IsTrans Mesh related]
    {result : Except Fault Mesh} {next : Mesh → Except Fault Mesh}
    (first : Leads related mesh result)
    (then_ : ∀ middle, related middle mesh → Leads related middle (next middle)) :
    Leads related mesh (result >>= next) := by
  obtain ⟨middle, computed, one⟩ := first
  obtain ⟨after, later, other⟩ := then_ middle one
  exact ⟨after, by rw [computed, ok_bind, later], IsTrans.trans _ _ _ other one⟩

section Leading
variable (own : IsHashname localHashname) (placed : Placed beyond localHashname mesh)
  (named : IsHashname (mesh.hashname identity))
include own placed named

/-- A line or a channel is no member of a bucket, so removing it removes nothing. -/
theorem removeFromBucket_keeps {object : Object} (other : ∀ ref, Object.identity ref ≠ object) :
    Leads Keeps mesh (removeFromBucket beyond mesh identity object) := by
  obtain ⟨bucket, found, indexed⟩ := ownBucket_found own placed named
  obtain ⟨inside, same⟩ := List.getElem?_eq_some_iff.mp found
  have whole : removeObject bucket object = bucket :=
    List.filter_eq_self.mpr fun entry _ => decide_eq_true (other entry)
  unfold removeFromBucket
  rw [localDistance_ok own placed named, ok_bind, indexed, ok_bind, Int.toNat_natCast, whole]
  refine leads_ok ⟨?_, rfl⟩
  rw [Mesh.setBucket, ← same, List.set_getElem_self]

theorem didChangeStateTo_keeps (channel : ChannelRef) (channelState : THChannelState) :
    Leads Keeps mesh (didChangeStateTo beyond mesh channel identity channelState) := by
  unfold didChangeStateTo
  split
  · exact removeFromBucket_keeps own placed named fun _ => Object.noConfusion
  · exact leads_ok (Keeps.refl mesh)

theorem didFailWithError_keeps (channel : ChannelRef) :
    Leads Keeps mesh (didFailWithError beyond mesh channel identity) :=
  removeFromBucket_keeps own placed named fun _ => Object.noConfusion

theorem removeLine_keeps (line : LineRef) :
    Leads Keeps mesh (removeLine beyond mesh line identity) :=
  removeFromBucket_keeps own placed named fun _ => Object.noConfusion

theorem setState_keeps (linkChannel : LinkChannel) (state : THChannelState) :
    Leads Keeps mesh (setState beyond mesh identity linkChannel state) := by
  have changed : Keeps (mesh.updatePeer identity fun peer =>
      { peer with linkChannel := some { linkChannel with state := state } }) mesh :=
    keeps_updatePeer rfl
  unfold setState
  dsimp only
  split
  · obtain ⟨after, computed, keeps⟩ := didChangeStateTo_keeps own (placed.reduce changed.reduces)
      (by rw [changed.hashnames]; exact named) linkChannel.ref state
    exact ⟨after, computed, keeps.trans changed⟩
  · exact leads_ok changed

theorem closeLine_keeps (line : LineRef) :
    Leads Keeps mesh (MeshBuckets.closeLine beyond mesh line identity) := by
  unfold MeshBuckets.closeLine
  refine (removeLine_keeps own placed named line).bind fun removed _ => ?_
  exact leads_ok (keeps_updatePeer rfl)

theorem endLink_keeps : Leads Keeps mesh (endLink beyond mesh identity) := by
  unfold endLink
  split
  · exact leads_ok (Keeps.refl mesh)
  · rename_i linkChannel _
    dsimp only
    split
    · refine (setState_keeps own placed named _ _).bind fun ended _ => ?_
      exact leads_ok (keeps_updatePeer rfl)
    · exact leads_ok (keeps_updatePeer rfl)

theorem failLink_keeps : Leads Keeps mesh (failLink beyond mesh identity) := by
  unfold failLink
  split
  · exact leads_ok (Keeps.refl mesh)
  · rename_i linkChannel _
    refine (didFailWithError_keeps own placed named _).bind fun told keeps => ?_
    have errored := setState_keeps own (placed.reduce keeps.reduces)
      (by rw [keeps.hashnames]; exact named) linkChannel .errored
    refine errored.bind fun after _ => ?_
    exact leads_ok (keeps_updatePeer rfl)

theorem reset_keeps : Leads Keeps mesh (MeshBuckets.reset beyond mesh identity) := by
  have asked : Keeps (mesh.ask identity .reset) mesh := keeps_ask .reset
  unfold MeshBuckets.reset
  obtain ⟨closed, ended, keeps⟩ := endLink_keeps own (placed.reduce asked.reduces)
    (by rw [asked.hashnames]; exact named)
  rw [ended, ok_bind]
  have unreachable : Keeps (closed.updatePeer identity fun peer =>
      { peer with hasActivePath := false, hasPeerChannel := false }) mesh :=
    (keeps_updatePeer rfl).trans (keeps.trans asked)
  dsimp only
  split
  · exact leads_ok unreachable
  · rename_i line _
    obtain ⟨after, computed, last⟩ := closeLine_keeps own (placed.reduce unreachable.reduces)
      (by rw [unreachable.hashnames]; exact named) line
    exact ⟨after, computed, last.trans unreachable⟩

omit own placed named in
/-- A stale link channel: its entry goes, and the channel is forgotten. -/
theorem dropped_reduces {bucketIndex idx : Nat} {bucket : List IdentityRef}
    (found : mesh.table.buckets[bucketIndex]? = some bucket) :
    Reduces ((mesh.setBucket bucketIndex
        ((mesh.table.buckets.getD bucketIndex []).eraseIdx idx)).updatePeer identity fun peer =>
          { peer with linkChannel := none }) mesh := by
  have fewer : Reduces (mesh.setBucket bucketIndex
      ((mesh.table.buckets.getD bucketIndex []).eraseIdx idx)) mesh := by
    refine ⟨rfl, rfl, reduced_set found ?_⟩
    rw [List.getD_eq_getElem?_getD, found]
    exact List.eraseIdx_sublist bucket idx
  exact (keeps_updatePeer rfl).reduces.trans fewer

theorem reset_dropped {bucketIndex idx : Nat} {bucket : List IdentityRef}
    (found : mesh.table.buckets[bucketIndex]? = some bucket) :
    let dropped := (mesh.setBucket bucketIndex
      ((mesh.table.buckets.getD bucketIndex []).eraseIdx idx)).updatePeer identity fun peer =>
        { peer with linkChannel := none }
    Leads Keeps dropped (MeshBuckets.reset beyond dropped identity) := by
  intro dropped
  have reduces : Reduces dropped mesh := dropped_reduces found
  exact reset_keeps own (placed.reduce reduces) (by rw [reduces.hashnames]; exact named)

/-- A turn of the inner loop of `pingLines` at an entry of a bucket. -/
theorem pingIdentity_reduces (checkTime : Nat) {bucketIndex idx : Nat} {bucket : List IdentityRef}
    (found : mesh.table.buckets[bucketIndex]? = some bucket) :
    Leads Reduces mesh (pingIdentity beyond checkTime bucketIndex idx identity mesh) := by
  unfold pingIdentity
  dsimp only
  split
  · split
    · obtain ⟨after, computed, keeps⟩ := reset_dropped own placed named found
      exact ⟨after, computed, keeps.reduces.trans (dropped_reduces found)⟩
    · split
      · exact leads_ok (keeps_ask _).reduces
      · split
        · exact leads_ok (keeps_ask _).reduces
        · exact leads_ok (Reduces.refl mesh)
  · obtain ⟨after, computed, keeps⟩ := reset_keeps own placed named
    exact ⟨after, computed, keeps.reduces⟩

end Leading

section Passes
variable (own : IsHashname localHashname)
include own

theorem pingBucket_reduces (checkTime bucketIndex fuel idx : Nat)
    (placed : Placed beyond localHashname mesh) :
    Leads Reduces mesh (pingBucket beyond checkTime bucketIndex fuel idx mesh) := by
  induction fuel generalizing idx mesh with
  | zero => exact leads_ok (Reduces.refl mesh)
  | succ fuel ih =>
      unfold pingBucket
      split
      · exact leads_ok (Reduces.refl mesh)
      · rename_i identity entry
        obtain ⟨bucket, found, inside⟩ := bucket_of_entry entry
        have named := placed.named_member found (List.mem_of_getElem? inside)
        exact (pingIdentity_reduces own placed named checkTime found).bind
          fun middle reduces => ih (idx + 1) (placed.reduce reduces)

theorem pingLines_reduces (checkTime : Nat) (placed : Placed beyond localHashname mesh) :
    Leads Reduces mesh (pingLines beyond mesh checkTime) := by
  have passes : ∀ (indices : List Nat) (mesh : Mesh), Placed beyond localHashname mesh →
      Leads Reduces mesh (indices.foldlM (fun mesh bucketIndex =>
        pingBucket beyond checkTime bucketIndex
          (mesh.table.buckets.getD bucketIndex []).length 0 mesh) mesh) := by
    intro indices
    induction indices with
    | nil => exact fun mesh _ => leads_ok (Reduces.refl mesh)
    | cons index rest ih =>
        intro mesh placed
        rw [List.foldlM_cons]
        exact (pingBucket_reduces own checkTime index _ 0 placed).bind
          fun middle reduces => ih middle (placed.reduce reduces)
  exact passes _ mesh placed

end Passes

/-! ## Insertion -/

theorem init_empty (local_ : Option String) : (THMeshBuckets.init local_).buckets.flatten = [] :=
  List.flatten_replicate_nil

theorem placed_init {peers : IdentityRef → Peer} {asked : List (IdentityRef × Request)} :
    Placed beyond localHashname ⟨.init (some localHashname), peers, asked⟩ where
  own := rfl
  count := List.length_replicate
  named := by
    rw [init_empty]
    exact List.forall_mem_nil _
  atHome := by
    intro index bucket found item member
    rw [THMeshBuckets.init, List.getElem?_replicate] at found
    split at found <;> cases found
    cases member
  distinct := by
    rw [Distinct, init_empty]
    exact List.nodup_nil

theorem addIdentity_placed (own : IsHashname localHashname)
    (placed : Placed beyond localHashname mesh) (named : IsHashname (mesh.hashname identity)) :
    ∃ after, addIdentity beyond mesh identity = .ok after ∧
      Placed beyond localHashname after ∧ after.hashname = mesh.hashname := by
  obtain ⟨bucket, found, indexed⟩ := ownBucket_found own placed named
  unfold addIdentity
  rw [localDistance_ok own placed named, ok_bind, indexed, ok_bind, Int.toNat_natCast]
  split
  · split
    · exact ⟨_, rfl, placed.reduce (keeps_ask _).reduces, rfl⟩
    · exact ⟨mesh, rfl, placed, rfl⟩
  · split
    · exact ⟨mesh, rfl, placed, rfl⟩
    · rename_i new
      refine ⟨_, rfl, ?_, rfl⟩
      exact
        { own := placed.own
          count := List.length_set.trans placed.count
          named := by
            intro other member
            rcases List.mem_cons.mp ((set_append_perm identity found).mem_iff.mp member) with
              same | old
            · rw [same]
              exact named
            · exact placed.named other old
          atHome := atHome_add placed.atHome found
          distinct := by
            refine distinct_add placed.atHome placed.distinct found ?_
            intro other member same
            exact new (List.any_eq_true.mpr ⟨other, member, decide_eq_true same⟩) }

/-! A mesh around the first of three peers. -/

def threePeers : Mesh where
  table := THMeshBuckets.init (some originHashname)
  peers := fun identity =>
    withHashname (if identity = 0 then originHashname
      else if identity = 1 then remoteHashname else farHashname)
  asked := []

end Telehash.Placement
