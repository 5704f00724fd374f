import Telehash.Nearby
import Telehash.Runs

/-!
Runs of a routing table. Identities are added and linked to, lines and link
channels end in every order, pings pass over the buckets and other code changes
what is known of a peer. Through all of it each identity stays in the bucket of
its distance; but the routes that are to take a dead link out of its bucket ask
the bucket for a line or a channel, and it holds identities.
-/

namespace Telehash.RoutingTable
open Foundation Identity Channel Distance MeshBuckets Buckets Placement Nearby Runs

inductive Event where
  | addIdentity (identity : IdentityRef)
  | linkToIdentity (seekString : IdentityRef → IdentityRef → Option String)
      (newChannel : LinkChannel) (identity : IdentityRef)
  | removeLine (line : LineRef) (toIdentity : IdentityRef)
  | closeLine (line : LineRef) (toIdentity : IdentityRef)
  | reset (identity : IdentityRef)
  | endLink (identity : IdentityRef)
  | failLink (identity : IdentityRef)
  | didChangeStateTo (channel : ChannelRef) (toIdentity : IdentityRef) (state : THChannelState)
  | didFailWithError (channel : ChannelRef) (toIdentity : IdentityRef)
  | pingTurn (checkTime bucketIndex idx : Nat)
  | pingLines (checkTime : Nat)
  -- other code sets up a peer; its hashname stays
  | changePeer (identity : IdentityRef) (peer : Peer)

/-- The identity whose bucket an event looks for. -/
def Event.identity : Event → Option IdentityRef
  | addIdentity identity | linkToIdentity _ _ identity | removeLine _ identity
  | closeLine _ identity | reset identity | endLink identity | failLink identity
  | didChangeStateTo _ identity _ | didFailWithError _ identity => some identity
  | pingTurn .. | pingLines _ | changePeer .. => none

/-- The events behind which the buckets may hold something else. -/
def Event.mayChangeTable : Event → Bool
  | addIdentity _ | linkToIdentity .. | pingTurn .. | pingLines _ => true
  | removeLine .. | closeLine .. | reset _ | endLink _ | failLink _ | didChangeStateTo ..
  | didFailWithError .. | changePeer .. => false

/-- One turn of the inner block of `pingLines`. A pass is a sequence of them. -/
def pingTurn (beyond : Data) (mesh : Mesh) (checkTime bucketIndex idx : Nat) : Except Fault Mesh :=
  match (mesh.table.buckets.getD bucketIndex [])[idx]? with
  | none => .ok mesh
  | some identity => pingIdentity beyond checkTime bucketIndex idx identity mesh

variable (beyond : Data) (sorting : Sorting)

def perform (mesh : Mesh) : Event → Except Fault Mesh
  | .addIdentity identity => MeshBuckets.addIdentity beyond mesh identity
  | .linkToIdentity seekString newChannel identity =>
      MeshBuckets.linkToIdentity beyond sorting seekString newChannel mesh identity
  | .removeLine line toIdentity => MeshBuckets.removeLine beyond mesh line toIdentity
  | .closeLine line toIdentity => MeshBuckets.closeLine beyond mesh line toIdentity
  | .reset identity => MeshBuckets.reset beyond mesh identity
  | .endLink identity => MeshBuckets.endLink beyond mesh identity
  | .failLink identity => MeshBuckets.failLink beyond mesh identity
  | .didChangeStateTo channel toIdentity state =>
      MeshBuckets.didChangeStateTo beyond mesh channel toIdentity state
  | .didFailWithError channel toIdentity =>
      MeshBuckets.didFailWithError beyond mesh channel toIdentity
  | .pingTurn checkTime bucketIndex idx => pingTurn beyond mesh checkTime bucketIndex idx
  | .pingLines checkTime => MeshBuckets.pingLines beyond mesh checkTime
  | .changePeer identity peer =>
      .ok (mesh.updatePeer identity fun old => { peer with hashname := old.hashname })

/-- A call that raises ends the program where it was. -/
def step (mesh : Mesh) (event : Event) : Mesh :=
  (perform beyond sorting mesh event).toOption.getD mesh

/-- The identities an event is about are named by hashnames. -/
def Named (mesh : Mesh) (event : Event) : Prop :=
  ∀ identity, event.identity = some identity → IsHashname (mesh.hashname identity)

variable {beyond sorting} {localHashname : String} {mesh : Mesh}

theorem step_ok {after : Mesh} {event : Event}
    (computed : perform beyond sorting mesh event = .ok after) :
    step beyond sorting mesh event = after := by
  rw [step, computed]
  rfl

/-! ## Placement -/

section Placement
variable (own : IsHashname localHashname) (placed : Placed beyond localHashname mesh)
include own placed

theorem nearby_ok {target : IdentityRef} (named : IsHashname (mesh.hashname target)) :
    ∃ entries, nearby beyond sorting mesh target = .ok entries := by
  obtain ⟨bucket, found, _⟩ := ownBucket_found own placed named
  obtain ⟨_, filling, computed, _⟩ := nearbyFilling_ok own placed named sorting found
  exact ⟨filling.entries, by rw [nearby, computed, ok_bind, pure_eq_ok]⟩

theorem linkToIdentity_placed {identity : IdentityRef}
    (seekString : IdentityRef → IdentityRef → Option String) (newChannel : LinkChannel)
    (named : IsHashname (mesh.hashname identity)) :
    ∃ after, MeshBuckets.linkToIdentity beyond sorting seekString newChannel mesh identity =
      .ok after ∧ Placed beyond localHashname after ∧ after.hashname = mesh.hashname := by
  obtain ⟨added, computed, placedToo, names⟩ := addIdentity_placed own placed named
  obtain ⟨entries, found⟩ := @nearby_ok beyond sorting _ added own placedToo identity
    (by rw [names]; exact named)
  unfold MeshBuckets.linkToIdentity
  rw [computed, ok_bind, found, ok_bind]
  split
  · exact ⟨_, rfl, placedToo.reduce (keeps_ask _).reduces, names⟩
  · have linked : ∀ sees, Keeps ((added.ask identity (.link newChannel.ref sees)).updatePeer
        identity fun peer =>
          { peer with linkChannel := if peer.currentLine.isSome then some newChannel else none })
        added :=
      fun sees => (keeps_updatePeer rfl).trans (keeps_ask _)
    exact ⟨_, rfl, placedToo.reduce (linked _).reduces, (linked _).hashnames.trans names⟩

theorem pingTurn_reduces (checkTime bucketIndex idx : Nat) :
    Leads Reduces mesh (pingTurn beyond mesh checkTime bucketIndex idx) := by
  unfold pingTurn
  split
  · exact leads_ok (Reduces.refl mesh)
  · rename_i identity entry
    obtain ⟨bucket, found, inside⟩ := bucket_of_entry entry
    have named := placed.named_member found (List.mem_of_getElem? inside)
    exact pingIdentity_reduces own placed named checkTime found

theorem perform_keeps {event : Event} (named : Named mesh event) (quiet : ¬event.mayChangeTable) :
    Leads Keeps mesh (perform beyond sorting mesh event) := by
  cases event with
  | addIdentity _ => exact absurd rfl quiet
  | linkToIdentity _ _ _ => exact absurd rfl quiet
  | pingTurn _ _ _ => exact absurd rfl quiet
  | pingLines _ => exact absurd rfl quiet
  | removeLine line identity => exact removeLine_keeps own placed (named identity rfl) line
  | closeLine line identity => exact closeLine_keeps own placed (named identity rfl) line
  | reset identity => exact reset_keeps own placed (named identity rfl)
  | endLink identity => exact endLink_keeps own placed (named identity rfl)
  | failLink identity => exact failLink_keeps own placed (named identity rfl)
  | didChangeStateTo channel identity state =>
      exact didChangeStateTo_keeps own placed (named identity rfl) channel state
  | didFailWithError channel identity =>
      exact didFailWithError_keeps own placed (named identity rfl) channel
  | changePeer identity peer => exact leads_ok (keeps_updatePeer rfl)

/-- Every event raises nothing and leaves the identities placed. -/
theorem perform_placed {event : Event} (named : Named mesh event) :
    ∃ after, perform beyond sorting mesh event = .ok after ∧
      Placed beyond localHashname after ∧ after.hashname = mesh.hashname := by
  have of_reduces : ∀ {result}, Leads Reduces mesh result →
      ∃ after, result = .ok after ∧ Placed beyond localHashname after ∧
        after.hashname = mesh.hashname :=
    fun ⟨after, computed, reduces⟩ =>
      ⟨after, computed, placed.reduce reduces, reduces.hashnames⟩
  by_cases quiet : event.mayChangeTable
  · cases event with
    | addIdentity identity => exact addIdentity_placed own placed (named identity rfl)
    | linkToIdentity seekString newChannel identity =>
        exact linkToIdentity_placed own placed seekString newChannel (named identity rfl)
    | pingTurn checkTime bucketIndex idx =>
        exact of_reduces (pingTurn_reduces own placed checkTime bucketIndex idx)
    | pingLines checkTime => exact of_reduces (pingLines_reduces own checkTime placed)
    | _ => cases quiet
  · obtain ⟨after, computed, keeps⟩ :=
      @perform_keeps beyond sorting _ _ own placed event named quiet
    exact ⟨after, computed, placed.reduce keeps.reduces, keeps.hashnames⟩

end Placement

/-- A table in the course of a run from some mesh. -/
structure Reached (beyond : Data) (localHashname : String) (start mesh : Mesh) : Prop where
  placed : Placed beyond localHashname mesh
  hashnames : mesh.hashname = start.hashname

theorem Reached.named {start : Mesh} {event : Event}
    (reached : Reached beyond localHashname start mesh) (named : Named start event) :
    Named mesh event := by
  unfold Named
  rw [reached.hashnames]
  exact named

theorem Reached.step {start : Mesh} (own : IsHashname localHashname) {event : Event}
    (named : Named start event) (reached : Reached beyond localHashname start mesh) :
    Reached beyond localHashname start (step beyond sorting mesh event) := by
  obtain ⟨after, computed, placed, hashnames⟩ :=
    @perform_placed beyond sorting _ _ own reached.placed event (reached.named named)
  rw [step_ok computed]
  exact ⟨placed, hashnames.trans reached.hashnames⟩

/-- Around a local identity named by a hashname, runs over identities named by
hashnames raise nothing and find every identity in the one bucket of its
distance, and no hashname twice, at every moment. -/
theorem identities_stay_placed (own : IsHashname localHashname) (peers : IdentityRef → Peer)
    (events : List Event)
    (named : ∀ event ∈ events, Named ⟨.init (some localHashname), peers, []⟩ event) :
    Along (step beyond sorting) (fun mesh event =>
        ∃ after, perform beyond sorting mesh event = .ok after)
      ⟨.init (some localHashname), peers, []⟩ events ∧
    Throughout (step beyond sorting) (fun mesh =>
        mesh.table.buckets.length = 256 ∧
        (∀ (index : Nat) bucket, mesh.table.buckets[index]? = some bucket → ∀ identity ∈ bucket,
          localDistance beyond mesh identity = .ok (index : Int)) ∧
        (mesh.table.buckets.flatten.map mesh.hashname).Nodup)
      ⟨.init (some localHashname), peers, []⟩ events := by
  have preserved : ∀ mesh event, Named ⟨.init (some localHashname), peers, []⟩ event →
      Reached beyond localHashname ⟨.init (some localHashname), peers, []⟩ mesh →
      Reached beyond localHashname ⟨.init (some localHashname), peers, []⟩
        (step beyond sorting mesh event) :=
    fun mesh event named reached => reached.step own named
  have along := @along_of_forall _ _ (step beyond sorting) _
    ⟨.init (some localHashname), peers, []⟩ events named
  constructor
  · apply along_invariant preserved _ _ _ ⟨placed_init, rfl⟩ along
    intro mesh event named reached
    obtain ⟨after, computed, _⟩ := perform_placed own reached.placed (reached.named named)
    exact ⟨after, computed⟩
  · apply throughout_mono _ _ _ (throughout_invariant preserved _ _ ⟨placed_init, rfl⟩ along)
    rintro mesh ⟨placed, _⟩
    refine ⟨placed.count, ?_, placed.distinct⟩
    intro index bucket found identity member
    have entryNamed := placed.named_member found member
    rw [localDistance_ok own placed entryNamed, placed.atHome index bucket found identity member]

def firstLine : LineRef := 0

def firstLinkChannel : LinkChannel where
  ref := 0
  class_ := .unreliable
  state := .opened
  createdAt := 0
  lastInActivity := 0

/-- Both peers are added, one is linked to, its line closes and a ping finds its link stale. -/
def linkedRun : List Event :=
  [.addIdentity 1, .changePeer 2 { withHashname "" with currentLine := some firstLine },
    .linkToIdentity (fun _ _ => none) firstLinkChannel 2, .closeLine firstLine 2, .pingLines 60]

theorem linkedRun_named : ∀ event ∈ linkedRun, Named threePeers event := by
  intro event member
  simp only [linkedRun, List.mem_cons, List.not_mem_nil, or_false] at member
  rcases member with rfl | rfl | rfl | rfl | rfl <;> intro identity same <;> cases same
  · exact remoteHashname_is
  · exact farHashname_is
  · exact farHashname_is

theorem identities_stay_placed_linked :
    Throughout (step [] stableSort) (fun mesh =>
        mesh.table.buckets.length = 256 ∧
        (∀ (index : Nat) bucket, mesh.table.buckets[index]? = some bucket → ∀ identity ∈ bucket,
          localDistance [] mesh identity = .ok (index : Int)) ∧
        (mesh.table.buckets.flatten.map mesh.hashname).Nodup) threePeers linkedRun :=
  (identities_stay_placed originHashname_is threePeers.peers linkedRun linkedRun_named).2

/-! ## Dead links -/

/-- An identity has left the table and all others are where they were. -/
def Gone (identity : IdentityRef) (before after : Mesh) : Prop :=
  identity ∉ after.table.buckets.flatten ∧
    ∀ index : Nat, after.table.buckets[index]? =
      before.table.buckets[index]?.map fun bucket => bucket.filter fun left => left ≠ identity

/-- Whose link an event ends: a closed line, a reset, or a link channel that
ends or fails. A turn of a ping pass resets an identity without a link channel,
or with a stale one. -/
def Event.deadLink (mesh : Mesh) : Event → Option IdentityRef
  | closeLine _ identity | reset identity | didFailWithError _ identity => some identity
  | endLink identity | failLink identity =>
      if (mesh.peers identity).linkChannel.isSome then some identity else none
  | didChangeStateTo _ identity state => if state.Halted then some identity else none
  | pingTurn checkTime bucketIndex idx =>
      (mesh.table.buckets.getD bucketIndex [])[idx]?.filter fun identity =>
        match (mesh.peers identity).linkChannel with
        | some linkChannel => stale checkTime linkChannel
        | none => true
  | addIdentity _ | linkToIdentity .. | removeLine .. | pingLines _ | changePeer .. => none

variable (beyond sorting) in
/-- What is to hold after an event that ends a link. -/
def LeavesTable (mesh : Mesh) (event : Event) : Prop :=
  ∀ identity, event.deadLink mesh = some identity →
    Gone identity mesh (step beyond sorting mesh event)

/-- The identity of the link is in no bucket, or it is the turn of a ping pass
that finds its link channel stale. -/
def OutsideTable (mesh : Mesh) (event : Event) : Prop :=
  ∀ identity, event.deadLink mesh = some identity →
    identity ∉ mesh.table.buckets.flatten ∨
      (∃ checkTime bucketIndex idx, event = .pingTurn checkTime bucketIndex idx) ∧
        (mesh.peers identity).linkChannel.isSome

theorem deadLink_entry {checkTime bucketIndex idx : Nat} {identity : IdentityRef}
    (dead : (Event.pingTurn checkTime bucketIndex idx).deadLink mesh = some identity) :
    (mesh.table.buckets.getD bucketIndex [])[idx]? = some identity :=
  (Option.filter_eq_some_iff.mp dead).1

theorem gone_iff_of_keeps {after : Mesh} (identity : IdentityRef) (keeps : Keeps after mesh) :
    Gone identity mesh after ↔ identity ∉ mesh.table.buckets.flatten := by
  unfold Gone
  rw [keeps.table]
  constructor
  · exact And.left
  · intro absent
    refine ⟨absent, fun index => ?_⟩
    cases found : mesh.table.buckets[index]? with
    | none => rfl
    | some bucket =>
        rw [Option.map_some, eq_comm, Option.some.injEq, List.filter_eq_self]
        intro left member
        apply decide_eq_true
        intro same
        subst same
        exact absent (mem_flatten_of_found found member)

theorem gone_of_filtered {identity : IdentityRef} {before after : Mesh}
    (filtered : ∀ index : Nat, after.table.buckets[index]? =
      before.table.buckets[index]?.map fun bucket => bucket.filter fun left => left ≠ identity) :
    Gone identity before after := by
  refine ⟨fun member => ?_, filtered⟩
  obtain ⟨bucket, inside, stays⟩ := List.mem_flatten.mp member
  obtain ⟨index, found⟩ := List.getElem?_of_mem inside
  rw [filtered index] at found
  obtain ⟨whole, _, same⟩ := Option.map_eq_some_iff.mp found
  rw [← same, List.mem_filter] at stays
  exact of_decide_eq_true stays.2 rfl

theorem pingTurn_entry {bucketIndex idx : Nat} {bucket : List IdentityRef} {identity : IdentityRef}
    (found : mesh.table.buckets[bucketIndex]? = some bucket) (entry : bucket[idx]? = some identity)
    (checkTime : Nat) : pingTurn beyond mesh checkTime bucketIndex idx =
      pingIdentity beyond checkTime bucketIndex idx identity mesh := by
  unfold pingTurn
  rw [List.getD_eq_getElem?_getD, found, Option.getD_some, entry]

section Turn
variable (own : IsHashname localHashname) (placed : Placed beyond localHashname mesh)
  {bucketIndex idx : Nat} {bucket : List IdentityRef} {identity : IdentityRef}
  (found : mesh.table.buckets[bucketIndex]? = some bucket) (entry : bucket[idx]? = some identity)
include own placed found entry

/-- A stale link channel takes its identity out of the bucket before the reset. -/
theorem stale_gone {checkTime : Nat} {linkChannel : LinkChannel}
    (linked : (mesh.peers identity).linkChannel = some linkChannel)
    (old : stale checkTime linkChannel) :
    Leads (fun after before => Gone identity before after) mesh
      (pingTurn beyond mesh checkTime bucketIndex idx) := by
  have named := placed.named_member found (List.mem_of_getElem? entry)
  obtain ⟨after, computed, keeps⟩ := reset_dropped own placed named found
  rw [pingTurn_entry found entry]
  refine ⟨after, ?_, gone_of_filtered ?_⟩
  · unfold pingIdentity
    simp only [linked, old, if_true]
    exact computed
  · intro index
    rw [keeps.table]
    have filtered := eraseIdx_filter placed.atHome placed.distinct found entry index
    simpa only [Mesh.updatePeer, Mesh.setBucket, List.getD_eq_getElem?_getD, found,
      Option.getD_some] using filtered

/-- A missing one does not. -/
theorem unlinked_stays {checkTime : Nat} (unlinked : (mesh.peers identity).linkChannel = none) :
    Leads Keeps mesh (pingTurn beyond mesh checkTime bucketIndex idx) := by
  have named := placed.named_member found (List.mem_of_getElem? entry)
  rw [pingTurn_entry found entry]
  unfold pingIdentity
  simp only [unlinked]
  exact reset_keeps own placed named

end Turn

/-- After an event that ends a link its identity is out of the table, the others
untouched, exactly if it was out of it before or a ping pass found it stale. -/
theorem leavesTable_iff (own : IsHashname localHashname) (placed : Placed beyond localHashname mesh)
    {event : Event} (named : Named mesh event) :
    LeavesTable beyond sorting mesh event ↔ OutsideTable mesh event := by
  apply forall_congr'
  intro identity
  apply imp_congr_right
  intro dead
  by_cases quiet : event.mayChangeTable
  · cases event with
    | pingTurn checkTime bucketIndex idx =>
        simp only [Event.deadLink, Option.filter_eq_some_iff] at dead
        obtain ⟨listed, ends⟩ := dead
        obtain ⟨bucket, found, entry⟩ := bucket_of_entry listed
        have inside := mem_flatten_of_found found (List.mem_of_getElem? entry)
        cases linked : (mesh.peers identity).linkChannel with
        | none =>
            obtain ⟨after, computed, keeps⟩ :=
              @unlinked_stays _ _ _ own placed _ _ _ _ found entry checkTime linked
            rw [@step_ok beyond sorting mesh after (.pingTurn ..) computed,
              gone_iff_of_keeps identity keeps]
            simp [inside]
        | some linkChannel =>
            rw [linked] at ends
            obtain ⟨after, computed, gone⟩ := stale_gone own placed found entry linked ends
            rw [@step_ok beyond sorting mesh after (.pingTurn ..) computed]
            exact ⟨fun _ => Or.inr ⟨⟨_, _, _, rfl⟩, rfl⟩, fun _ => gone⟩
    | addIdentity _ | linkToIdentity _ _ _ | pingLines _ => simp [Event.deadLink] at dead
    | _ => cases quiet
  · obtain ⟨after, computed, keeps⟩ :=
      @perform_keeps beyond sorting _ _ own placed event named quiet
    rw [step_ok computed, gone_iff_of_keeps identity keeps]
    constructor
    · exact Or.inl
    · rintro (absent | ⟨⟨_, _, _, turn⟩, _⟩)
      · exact absent
      · subst turn
        exact absurd rfl quiet

/-- In a run every event that ends a link leaves its identity out of the table
exactly if, each time, it was out of it before or a ping pass found it stale. -/
theorem dead_links_leave_iff (own : IsHashname localHashname) (peers : IdentityRef → Peer)
    (events : List Event)
    (named : ∀ event ∈ events, Named ⟨.init (some localHashname), peers, []⟩ event) :
    Along (step beyond sorting) (LeavesTable beyond sorting)
      ⟨.init (some localHashname), peers, []⟩ events ↔
    Along (step beyond sorting) OutsideTable ⟨.init (some localHashname), peers, []⟩ events := by
  have along := @along_of_forall _ _ (step beyond sorting) _
    ⟨.init (some localHashname), peers, []⟩ events named
  have start : Reached beyond localHashname ⟨.init (some localHashname), peers, []⟩
      ⟨.init (some localHashname), peers, []⟩ := ⟨placed_init, rfl⟩
  refine along_congr_invariant (fun mesh event named reached => ?_)
    (fun mesh event named reached => ?_) _ _ start along
  · exact Reached.step own named reached
  · exact leavesTable_iff own reached.placed (reached.named named)

/-- An identity is added and its line is closed: the table still holds it. -/
def closedRun : List Event := [.addIdentity 1, .closeLine firstLine 1]

theorem closed_line_stays_listed :
    ¬Along (step [] stableSort) (LeavesTable [] stableSort) threePeers closedRun := by
  intro leaves
  have gone := leaves.2.1 1 rfl
  have listed : 1 ∈ (run (step [] stableSort) threePeers closedRun).table.buckets.flatten := by
    decide +kernel
  exact gone.1 listed

/-- A stale link is found by a turn of a ping pass, and its identity leaves the table. -/
def staleRun : List Event :=
  [.addIdentity 1, .changePeer 1 { withHashname "" with linkChannel := some firstLinkChannel },
    .pingTurn 60 241 0, .closeLine firstLine 1]

theorem stale_link_leaves :
    Along (step [] stableSort) (LeavesTable [] stableSort) threePeers staleRun := by
  have named : ∀ event ∈ staleRun, Named threePeers event := by
    intro event member
    simp only [staleRun, List.mem_cons, List.not_mem_nil, or_false] at member
    rcases member with rfl | rfl | rfl | rfl <;> intro identity same <;> cases same <;>
      exact remoteHashname_is
  apply (dead_links_leave_iff originHashname_is threePeers.peers staleRun named).mpr
  have linked : ((run (step [] stableSort) threePeers (staleRun.take 2)).peers 1).linkChannel.isSome
      ∧ ((run (step [] stableSort) threePeers (staleRun.take 2)).table.buckets.getD 241 [])[0]? =
        some 1 ∧
      1 ∉ (run (step [] stableSort) threePeers (staleRun.take 3)).table.buckets.flatten := by
    decide +kernel
  refine ⟨fun _ dead => ?_, fun _ dead => ?_, fun identity dead => ?_, fun identity dead => ?_,
    trivial⟩
  · cases dead
  · cases dead
  · have entry := deadLink_entry dead
    rw [Option.some.inj (entry.symm.trans linked.2.1)]
    exact Or.inr ⟨⟨_, _, _, rfl⟩, linked.1⟩
  · cases dead
    exact Or.inl linked.2.2

end Telehash.RoutingTable
