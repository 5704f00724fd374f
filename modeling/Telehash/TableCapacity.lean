import Telehash.MeshFrames
import Telehash.RoutingTable

/-!
The capacity of a routing table. `addIdentity:` is to leave a full bucket as it
is once the table holds `MAX_LINKS` identities; the counter it asks for that is
never counted up, so every bucket takes in whatever belongs to it.
-/

namespace Telehash.TableCapacity
open Foundation Identity Channel Distance MeshBuckets MeshFrames Buckets Placement RoutingTable Runs

def held (mesh : Mesh) : Nat := mesh.table.buckets.flatten.length

/-- The identity an event calls `addIdentity:` with. -/
def added : Event → Option IdentityRef
  | .addIdentity identity | .linkToIdentity _ _ identity => some identity
  | _ => none

variable (beyond : Data) (sorting : Sorting)

/-! ## What the capacity asks for -/

/-- The counter tells the number of identities held, and they are not too many. -/
def Counted (mesh : Mesh) : Prop :=
  mesh.table.linkTotal = held mesh ∧ held mesh ≤ maxLinks + 256 * bucketSize

/-- With `MAX_LINKS` identities in the table no full bucket gets any larger. -/
def KeepsFullBuckets (mesh : Mesh) (event : Event) : Prop :=
  maxLinks ≤ held mesh → ∀ (index : Nat) bucket larger,
    mesh.table.buckets[index]? = some bucket → bucketSize ≤ bucket.length →
    (step beyond sorting mesh event).table.buckets[index]? = some larger →
    larger.length ≤ bucket.length

/-- An identity that is added is listed already, or its bucket has room, or the
table has. -/
def FitsIn (mesh : Mesh) (event : Event) : Prop :=
  ∀ identity, added event = some identity → ∀ bucket,
    ownBucket beyond mesh identity = .ok bucket →
    (∃ current ∈ bucket, mesh.hashname current = mesh.hashname identity) ∨
      bucket.length < bucketSize ∨ held mesh < maxLinks

/-! ## The counter -/

def SameTotal (after before : Mesh) : Prop := after.table.linkTotal = before.table.linkTotal

theorem sameTotal_framed (identity : IdentityRef) : FramedAsking SameTotal identity where
  refl := fun _ => rfl
  trans := Eq.trans
  setBucket := fun _ _ _ => rfl
  updatePeer := fun _ _ => rfl
  ask := fun _ _ => rfl

section Counter
variable {beyond sorting} {mesh : Mesh}

/-- No call ever changes the counter. -/
theorem perform_total (event : Event) :
    Leaves SameTotal mesh (perform beyond sorting mesh event) := by
  have framed := fun identity => (sameTotal_framed identity).toFramed
  cases event with
  | addIdentity identity => exact addIdentity_leaves (sameTotal_framed identity) rfl
  | linkToIdentity seekString newChannel identity =>
      exact linkToIdentity_leaves (sameTotal_framed identity) rfl sorting seekString newChannel
  | removeLine line identity => exact removeFromBucket_leaves (framed identity) rfl _
  | closeLine line identity => exact closeLine_leaves (framed identity) rfl line
  | reset identity => exact reset_leaves (framed identity) rfl
  | endLink identity => exact endLink_leaves (framed identity) rfl
  | failLink identity => exact failLink_leaves (framed identity) rfl
  | didChangeStateTo channel identity state =>
      exact didChangeStateTo_leaves (framed identity) rfl channel state
  | didFailWithError channel identity => exact removeFromBucket_leaves (framed identity) rfl _
  | pingTurn checkTime bucketIndex idx =>
      unfold perform pingTurn
      dsimp only
      split
      · exact leaves_ok rfl
      · exact pingIdentity_leaves (sameTotal_framed _) rfl _ _ _
  | pingLines checkTime => exact pingLines_leaves sameTotal_framed checkTime rfl
  | changePeer identity peer => exact leaves_ok rfl

theorem step_total (event : Event) :
    (step beyond sorting mesh event).table.linkTotal = mesh.table.linkTotal := by
  unfold RoutingTable.step
  cases computed : perform beyond sorting mesh event with
  | error fault => rfl
  | ok after => exact perform_total event after computed

end Counter

/-! ## Single events -/

section Events
variable {beyond sorting} {localHashname : String} {mesh : Mesh}
  (own : IsHashname localHashname) (placed : Placed beyond localHashname mesh)
include own placed

/-- With the counter at 0 an identity that is not listed goes into its bucket. -/
theorem addIdentity_spec (uncounted : mesh.table.linkTotal = 0) {identity : IdentityRef}
    (named : IsHashname (mesh.hashname identity)) :
    ∃ (index : Nat) (bucket : List IdentityRef), mesh.table.buckets[index]? = some bucket ∧
      ownBucket beyond mesh identity = .ok bucket ∧
      MeshBuckets.addIdentity beyond mesh identity =
        .ok (if bucket.any fun current => mesh.hashname current = mesh.hashname identity then mesh
          else mesh.setBucket index (bucket ++ [identity])) := by
  obtain ⟨bucket, found, indexed⟩ := ownBucket_found own placed named
  refine ⟨_, bucket, found, ?_, ?_⟩
  · rw [ownBucket, localDistance_ok own placed named, ok_bind, indexed]
  · have room : ¬(maxLinks ≤ mesh.table.linkTotal ∧ bucketSize ≤ bucket.length) := by
      rw [uncounted]
      exact fun full => absurd full.1 (by decide)
    unfold MeshBuckets.addIdentity
    rw [localDistance_ok own placed named, ok_bind, indexed, ok_bind, Int.toNat_natCast,
      if_neg room]
    split <;> rfl

theorem step_added (uncounted : mesh.table.linkTotal = 0) {event : Event} {identity : IdentityRef}
    (adds : added event = some identity) (named : Named mesh event) :
    ∃ (index : Nat) (bucket : List IdentityRef), mesh.table.buckets[index]? = some bucket ∧
      ownBucket beyond mesh identity = .ok bucket ∧
      (step beyond sorting mesh event).table.buckets =
        if bucket.any fun current => mesh.hashname current = mesh.hashname identity then
          mesh.table.buckets
        else mesh.table.buckets.set index (bucket ++ [identity]) := by
  cases event with
  | addIdentity other =>
      cases adds
      obtain ⟨index, bucket, found, ownFound, computed⟩ :=
        addIdentity_spec own placed uncounted (named identity rfl)
      refine ⟨index, bucket, found, ownFound, ?_⟩
      rw [@step_ok beyond sorting mesh _ (.addIdentity identity) computed]
      split <;> rfl
  | linkToIdentity seekString newChannel other =>
      cases adds
      obtain ⟨index, bucket, found, ownFound, computed⟩ :=
        addIdentity_spec own placed uncounted (named identity rfl)
      obtain ⟨after, linked, placedToo, names⟩ := addIdentity_placed own placed (named identity rfl)
      obtain ⟨entries, near⟩ := @nearby_ok beyond sorting _ after own placedToo identity
        (by rw [names]; exact named identity rfl)
      refine ⟨index, bucket, found, ownFound, ?_⟩
      have whole : (step beyond sorting mesh
          (.linkToIdentity seekString newChannel identity)).table = after.table := by
        unfold RoutingTable.step perform MeshBuckets.linkToIdentity
        dsimp only
        rw [linked, ok_bind, near, ok_bind]
        cases (after.peers identity).linkChannel <;> rfl
      rw [linked] at computed
      rw [whole, Except.ok.inj computed]
      split <;> rfl
  | _ => cases adds

/-- Every other event takes nothing in. -/
theorem step_reduced {event : Event} (adds : added event = none) (named : Named mesh event) :
    Reduced (step beyond sorting mesh event).table.buckets mesh.table.buckets := by
  have of_reduces : ∀ {event}, Leads Reduces mesh (perform beyond sorting mesh event) →
      Reduced (step beyond sorting mesh event).table.buckets mesh.table.buckets := by
    rintro event ⟨after, computed, reduces⟩
    rw [step_ok computed]
    exact reduces.buckets
  by_cases quiet : event.mayChangeTable
  · cases event with
    | pingTurn checkTime bucketIndex idx =>
        exact of_reduces (pingTurn_reduces own placed checkTime bucketIndex idx)
    | pingLines checkTime => exact of_reduces (pingLines_reduces own checkTime placed)
    | addIdentity _ | linkToIdentity _ _ _ => cases adds
    | _ => cases quiet
  · obtain ⟨after, computed, keeps⟩ :=
      @perform_keeps beyond sorting _ _ own placed event named quiet
    exact of_reduces ⟨after, computed, keeps.reduces⟩

/-- An addition to an empty table is counted nowhere. -/
theorem not_counted (uncounted : mesh.table.linkTotal = 0) (empty : held mesh = 0) {event : Event}
    {identity : IdentityRef} (adds : added event = some identity) (named : Named mesh event) :
    held (step beyond sorting mesh event) = 1 := by
  obtain ⟨index, bucket, found, _, after⟩ :=
    @step_added beyond sorting _ _ own placed uncounted event identity adds named
  have flat : mesh.table.buckets.flatten = [] := List.eq_nil_of_length_eq_zero empty
  have none_ : bucket = [] := by
    have inside := List.sublist_flatten_of_mem (List.mem_of_getElem? found)
    rw [flat] at inside
    exact List.eq_nil_of_sublist_nil inside
  have perm := set_append_perm identity found
  rw [none_] at perm after
  rw [held, after, List.any_nil, if_neg Bool.false_ne_true, perm.length_eq, flat]
  rfl

/-- A full bucket of a full table stays as large as it is exactly if what is
added fits in. -/
theorem keepsFullBuckets_iff (uncounted : mesh.table.linkTotal = 0) {event : Event}
    (named : Named mesh event) :
    KeepsFullBuckets beyond sorting mesh event ↔ FitsIn beyond mesh event := by
  cases adds : added event with
  | none =>
      have reduced := @step_reduced beyond sorting _ _ own placed event adds named
      constructor
      · intro _ identity same
        rw [adds] at same
        cases same
      · intro _ _ index bucket larger found _ after
        obtain ⟨inside, same⟩ := List.getElem?_eq_some_iff.mp after
        have fewer := List.Forall₂.get reduced inside (reduced.length_eq ▸ inside)
        rw [List.get_eq_getElem, List.get_eq_getElem, same,
          (List.getElem?_eq_some_iff.mp found).2] at fewer
        exact fewer.length_le
  | some identity =>
      obtain ⟨place, home, homeFound, ownFound, after⟩ :=
        @step_added beyond sorting _ _ own placed uncounted event identity adds named
      have fits : FitsIn beyond mesh event ↔
          (∃ current ∈ home, mesh.hashname current = mesh.hashname identity) ∨
            home.length < bucketSize ∨ held mesh < maxLinks := by
        simp only [FitsIn, adds, Option.some.injEq, forall_eq', ownFound, Except.ok.injEq]
      have known : home.any (fun current => mesh.hashname current = mesh.hashname identity) = true ↔
          ∃ current ∈ home, mesh.hashname current = mesh.hashname identity := by
        simp
      rw [fits]
      by_cases listed : ∃ current ∈ home, mesh.hashname current = mesh.hashname identity
      · rw [if_pos (known.mpr listed)] at after
        refine iff_of_true ?_ (Or.inl listed)
        intro _ index bucket larger found _ there
        rw [after, found] at there
        cases there
        exact Nat.le_refl _
      · rw [if_neg (mt known.mp listed)] at after
        unfold KeepsFullBuckets
        rw [after]
        constructor
        · intro keeps
          by_contra full
          rw [not_or, not_or, Nat.not_lt, Nat.not_lt] at full
          have grown := keeps full.2.2 place home (home ++ [identity]) homeFound full.2.1
            (List.getElem?_set_self (List.getElem?_eq_some_iff.mp homeFound).1)
          rw [List.length_append, List.length_singleton] at grown
          omega
        · intro room many index bucket larger found big there
          by_cases here : place = index
          · subst here
            rw [homeFound] at found
            cases found
            rcases room with member | few | space
            · exact absurd member listed
            · omega
            · omega
          · rw [List.getElem?_set_ne here, found] at there
            cases there
            exact Nat.le_refl _

end Events

/-! ## Runs -/

/-- A table in the course of a run, with the counter as it was at the start. -/
structure Uncounted (localHashname : String) (start mesh : Mesh) : Prop where
  reached : Reached beyond localHashname start mesh
  total : mesh.table.linkTotal = 0

section Runs
variable {beyond sorting} {localHashname : String} {start mesh : Mesh}
  (own : IsHashname localHashname)
include own

theorem Uncounted.step {event : Event} (named : Named start event)
    (uncounted : Uncounted beyond localHashname start mesh) :
    Uncounted beyond localHashname start (RoutingTable.step beyond sorting mesh event) :=
  ⟨uncounted.reached.step own named, step_total event |>.trans uncounted.total⟩

omit own in
theorem placed_held (placed : Placed beyond localHashname mesh) :
    held mesh ≤ overflow bucketSize mesh.table.buckets + 256 * bucketSize := by
  have sizes := @length_flatten_le _ mesh.table.buckets bucketSize
  rwa [placed.count] at sizes

/-- Where what is added fits in, the overflow of the buckets stays within `MAX_LINKS`. -/
theorem overflow_step {event : Event} (named : Named mesh event)
    (placed : Placed beyond localHashname mesh) (total : mesh.table.linkTotal = 0)
    (fits : FitsIn beyond mesh event)
    (bounded : overflow bucketSize mesh.table.buckets ≤ maxLinks) :
    overflow bucketSize (RoutingTable.step beyond sorting mesh event).table.buckets ≤ maxLinks := by
  cases adds : added event with
  | none =>
      have reduced := @step_reduced beyond sorting _ _ own placed event adds named
      exact Nat.le_trans reduced.overflow_le bounded
  | some identity =>
      obtain ⟨place, home, homeFound, ownFound, after⟩ :=
        @step_added beyond sorting _ _ own placed total event identity adds named
      rw [after]
      split
      · exact bounded
      · rename_i new
        rw [overflow_set_append identity homeFound]
        rcases fits identity adds home ownFound with ⟨current, member, same⟩ | room | space
        · exact absurd (List.any_eq_true.mpr ⟨current, member, decide_eq_true same⟩) new
        · rw [if_pos room]
          exact bounded
        · have few := @overflow_le _ mesh.table.buckets bucketSize
          unfold held at space
          split <;> omega

end Runs

/-- The counter tells what is held and the table is not too large at every moment,
and no call makes a full bucket of a full table larger. -/
def RespectsCapacity (start : Mesh) (events : List Event) : Prop :=
  Throughout (step beyond sorting) Counted start events ∧
    Along (step beyond sorting) (KeepsFullBuckets beyond sorting) start events

theorem uncounted_init {beyond : Data} {localHashname : String} {peers : IdentityRef → Peer} :
    Uncounted beyond localHashname ⟨.init (some localHashname), peers, []⟩
      ⟨.init (some localHashname), peers, []⟩ :=
  ⟨⟨placed_init, rfl⟩, rfl⟩

section Whole
variable {localHashname : String} (own : IsHashname localHashname) (peers : IdentityRef → Peer)
  (events : List Event)
  (named : ∀ event ∈ events, Named ⟨.init (some localHashname), peers, []⟩ event)
include own named

theorem full_buckets_kept_iff :
    Along (step beyond sorting) (KeepsFullBuckets beyond sorting)
        ⟨.init (some localHashname), peers, []⟩ events ↔
      Along (step beyond sorting) (FitsIn beyond)
        ⟨.init (some localHashname), peers, []⟩ events := by
  refine along_congr_invariant (fun mesh event named uncounted => ?_)
    (fun mesh event named uncounted => ?_) _ _ (@uncounted_init beyond _ peers)
    (along_of_forall _ _ named)
  · exact uncounted.step own named
  · exact keepsFullBuckets_iff own uncounted.reached.placed uncounted.total
      (uncounted.reached.named named)

theorem fitting_bounded
    (fits : Along (step beyond sorting) (FitsIn beyond)
      ⟨.init (some localHashname), peers, []⟩ events) :
    Throughout (step beyond sorting) (fun mesh => held mesh ≤ maxLinks + 256 * bucketSize)
      ⟨.init (some localHashname), peers, []⟩ events := by
  have bounded : Throughout (step beyond sorting) (fun mesh =>
      Uncounted beyond localHashname ⟨.init (some localHashname), peers, []⟩ mesh ∧
        overflow bucketSize mesh.table.buckets ≤ maxLinks)
      ⟨.init (some localHashname), peers, []⟩ events := by
    apply throughout_invariant _ _ _ _
      ((along_and _ _).mpr ⟨along_of_forall _ _ named, fits⟩)
    · rintro mesh event ⟨named, fitsIn⟩ ⟨uncounted, few⟩
      exact ⟨uncounted.step own named, overflow_step own (uncounted.reached.named named)
        uncounted.reached.placed uncounted.total fitsIn few⟩
    · refine ⟨uncounted_init, Nat.le_trans overflow_le ?_⟩
      rw [init_empty]
      exact Nat.zero_le _
  apply throughout_mono _ _ _ bounded
  rintro mesh ⟨uncounted, few⟩
  have sizes := placed_held uncounted.reached.placed
  omega

/-- As long as nothing is added the counter is right about the empty table. -/
theorem counted_iff :
    Throughout (step beyond sorting) Counted ⟨.init (some localHashname), peers, []⟩ events ↔
      ∀ event ∈ events, added event = none := by
  have along := @along_of_forall _ _ (step beyond sorting) _
    ⟨.init (some localHashname), peers, []⟩ events named
  have exact_ := @throughout_iff_along _ _ (step beyond sorting)
    (fun _ event => Named ⟨.init (some localHashname), peers, []⟩ event)
    (fun _ event => added event = none) Counted
    (fun mesh => Uncounted beyond localHashname ⟨.init (some localHashname), peers, []⟩ mesh ∧
      held mesh = 0)
    (by
      rintro mesh ⟨uncounted, empty⟩
      rw [Counted, uncounted.total, empty]
      exact ⟨rfl, Nat.zero_le _⟩)
    (by
      rintro mesh event named none_ ⟨uncounted, empty⟩
      have reduced := @step_reduced beyond sorting _ _ own uncounted.reached.placed event none_
        (uncounted.reached.named named)
      have fewer := reduced.flatten.length_le
      unfold held at empty ⊢
      exact ⟨uncounted.step own named, by omega⟩)
    (by
      rintro mesh event named ⟨uncounted, empty⟩ counted
      cases adds : added event with
      | none => rfl
      | some identity =>
          have one := @not_counted beyond sorting _ _ own uncounted.reached.placed uncounted.total
            empty event identity adds (uncounted.reached.named named)
          rw [Counted, step_total, uncounted.total, one] at counted
          exact absurd counted.1 (by decide))
    ⟨.init (some localHashname), peers, []⟩ events
    ⟨uncounted_init, by rw [held, init_empty]; rfl⟩ along
  rw [exact_]
  exact ⟨forall_of_along _ _, along_of_forall _ _⟩

/-- The counter never counts, so the capacity is respected exactly in the runs
that add nothing. Full buckets of a full table keep their size exactly in the
runs that add only what fits in, and then the table stays within its bound. -/
theorem capacity_respected_iff :
    (RespectsCapacity beyond sorting ⟨.init (some localHashname), peers, []⟩ events ↔
      ∀ event ∈ events, added event = none) ∧
    (Along (step beyond sorting) (KeepsFullBuckets beyond sorting)
        ⟨.init (some localHashname), peers, []⟩ events ↔
      Along (step beyond sorting) (FitsIn beyond)
        ⟨.init (some localHashname), peers, []⟩ events) ∧
    (Along (step beyond sorting) (FitsIn beyond)
        ⟨.init (some localHashname), peers, []⟩ events →
      Throughout (step beyond sorting) (fun mesh => held mesh ≤ maxLinks + 256 * bucketSize)
        ⟨.init (some localHashname), peers, []⟩ events) := by
  have kept := full_buckets_kept_iff beyond sorting own peers events named
  refine ⟨⟨fun respects => ?_, fun adds => ⟨?_, ?_⟩⟩, kept, ?_⟩
  · exact (counted_iff beyond sorting own peers events named).mp respects.1
  · exact (counted_iff beyond sorting own peers events named).mpr adds
  · apply kept.mpr
    apply along_everywhere
    intro event member mesh identity added_
    rw [adds event member] at added_
    cases added_
  · exact fitting_bounded beyond sorting own peers events named

end Whole

/-- A new identity is added to an empty table. -/
theorem first_addition_fits :
    Along (step [] stableSort) (KeepsFullBuckets [] stableSort) threePeers [.addIdentity 1] := by
  have named : ∀ event ∈ [Event.addIdentity 1], Named threePeers event := by
    intro event member identity same
    rw [List.mem_singleton.mp member] at same
    cases same
    exact remoteHashname_is
  apply (capacity_respected_iff [] stableSort originHashname_is threePeers.peers
    [.addIdentity 1] named).2.1.mpr
  refine ⟨fun identity _ bucket _ => Or.inr (Or.inr ?_), trivial⟩
  decide +kernel

theorem first_addition_not_counted :
    ¬RespectsCapacity [] stableSort threePeers [.addIdentity 1] := by
  rintro ⟨⟨_, counted, _⟩, _⟩
  revert counted
  decide +kernel

end Telehash.TableCapacity
