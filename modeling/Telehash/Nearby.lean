import Telehash.Placement

/-!
`nearby:` takes the first five identities of the buckets in the order it visits
them: the target's own bucket, then down to the first, then up to the last.
That is an order of closeness, since of the three distances between the local
identity, the target and a third identity the two longest are equal.
-/

namespace Telehash.Nearby
open Foundation Identity Distance MeshBuckets Buckets Placement LogDistance

/-! ## Filling up to five -/

/-- What is taken so far of the identities visited so far. -/
structure Filled (visited : List IdentityRef) (filling : Filling) : Prop where
  entries : filling.entries = visited.take 5
  counts : ∀ count ∈ filling.counts, count ≤ 5

theorem spaceLeft_eq {entries : List IdentityRef} (few : entries.length ≤ 5) :
    spaceLeft entries = 5 - entries.length := by
  have room : 5 + uintModulus - entries.length = uintModulus + (5 - entries.length) := by omega
  rw [spaceLeft, room, Nat.add_mod_left, Nat.mod_eq_of_lt]
  exact Nat.lt_of_le_of_lt (Nat.sub_le 5 _) (by decide)

theorem take_append_take (visited bucket : List IdentityRef) (count : Nat) :
    visited.take count ++
        bucket.take (min (count - (visited.take count).length) bucket.length) =
      (visited ++ bucket).take count := by
  have room : count - (visited.take count).length = count - visited.length := by
    rw [List.length_take]
    omega
  rw [List.take_append, room, ← List.take_eq_take_min]

theorem fillFrom_filled {visited bucket : List IdentityRef} {filling : Filling}
    (filled : Filled visited filling) : Filled (visited ++ bucket) (fillFrom bucket filling) := by
  have few : filling.entries.length ≤ 5 := by
    rw [filled.entries]
    exact List.length_take_le 5 visited
  unfold fillFrom
  by_cases empty : bucket.length = 0
  · rw [if_pos empty, List.length_eq_zero_iff.mp empty, List.append_nil]
    exact filled
  · rw [if_neg empty, spaceLeft_eq few]
    constructor
    · rw [filled.entries]
      exact take_append_take visited bucket 5
    · intro count member
      rcases List.mem_append.mp member with before | now
      · exact filled.counts count before
      · rw [List.mem_singleton.mp now]
        exact few

theorem objectAtIndex_ok {table : THMeshBuckets} {index : Nat}
    (inside : index < table.buckets.length) :
    table.objectAtIndex index = .ok table.buckets[index] := by
  rw [THMeshBuckets.objectAtIndex, if_neg (Int.not_lt.mpr (Int.natCast_nonneg index)),
    Int.toNat_natCast, List.getElem?_eq_getElem inside]

/-- The loop downwards goes through the buckets below, or stops when five are taken. -/
theorem fillDown_filled {table : THMeshBuckets} {index : Nat} {visited : List IdentityRef}
    {filling : Filling} (inside : index ≤ table.buckets.length) (filled : Filled visited filling) :
    ∃ after, fillDown table index filling = .ok after ∧
      Filled (visited ++ (table.buckets.take index).reverse.flatten) after := by
  induction index generalizing visited filling with
  | zero => exact ⟨filling, rfl, by simpa using filled⟩
  | succ index ih =>
      unfold fillDown
      by_cases more : filling.entries.length < 5
      · rw [if_pos more, objectAtIndex_ok inside, ok_bind]
        obtain ⟨after, computed, all⟩ :=
          ih (Nat.le_of_succ_le inside) (fillFrom_filled filled)
        refine ⟨after, computed, ?_⟩
        rw [← List.take_append_getElem inside, List.reverse_append, List.flatten_append,
          List.reverse_singleton, List.flatten_singleton, ← List.append_assoc]
        exact all
      · rw [if_neg more]
        refine ⟨filling, rfl, ?_, filled.counts⟩
        have enough : 5 ≤ visited.length := by
          rw [filled.entries, List.length_take] at more
          omega
        rw [List.take_append_of_le_length enough]
        exact filled.entries

theorem fillUp_filled {table : THMeshBuckets} {turns index : Nat} {visited : List IdentityRef}
    {filling : Filling} (reach : index + turns = table.buckets.length)
    (filled : Filled visited filling) :
    ∃ after, fillUp table turns index filling = .ok after ∧
      Filled (visited ++ (table.buckets.drop index).flatten) after := by
  induction turns generalizing index visited filling with
  | zero =>
      refine ⟨filling, rfl, ?_⟩
      rw [List.drop_eq_nil_of_le (by omega), List.flatten_nil, List.append_nil]
      exact filled
  | succ turns ih =>
      have inside : index < table.buckets.length := by omega
      unfold fillUp
      rw [objectAtIndex_ok inside, ok_bind]
      obtain ⟨after, computed, all⟩ :=
        @ih (index + 1) _ _ (by omega) (@fillFrom_filled _ table.buckets[index] _ filled)
      refine ⟨after, computed, ?_⟩
      rw [List.drop_eq_getElem_cons inside, List.flatten_cons, ← List.append_assoc]
      exact all

/-! ## The order of the visits -/

/-- One identity is no farther away than another. -/
def Nearer (distanceTo : IdentityRef → Except Fault Int) (one other : IdentityRef) : Prop :=
  ∃ near far, distanceTo one = .ok near ∧ distanceTo other = .ok far ∧ near ≤ far

/-- A bucket, the buckets below it downwards, and those above it upwards. -/
def visits (buckets : List (List IdentityRef)) (index : Nat) (ownSorted : List IdentityRef) :
    List (List IdentityRef) :=
  ownSorted :: ((buckets.take index).reverse ++ buckets.drop (index + 1))

/-- Every identity of the table is visited once. -/
theorem visits_perm {buckets : List (List IdentityRef)} {index : Nat}
    {bucket ownSorted : List IdentityRef} (found : buckets[index]? = some bucket)
    (sorted : ownSorted.Perm bucket) :
    (visits buckets index ownSorted).flatten.Perm buckets.flatten := by
  obtain ⟨inside, same⟩ := List.getElem?_eq_some_iff.mp found
  have parts : buckets = buckets.take index ++ bucket :: buckets.drop (index + 1) := by
    rw [← same, ← List.drop_eq_getElem_cons inside, List.take_append_drop]
  rw [visits, List.flatten_cons, List.flatten_append]
  calc ownSorted ++ ((buckets.take index).reverse.flatten ++ (buckets.drop (index + 1)).flatten)
    _ |>.Perm (bucket ++ ((buckets.take index).flatten ++ (buckets.drop (index + 1)).flatten)) :=
        sorted.append ((List.reverse_perm _).flatten.append_right _)
    _ |>.Perm ((buckets.take index).flatten ++ (bucket ++ (buckets.drop (index + 1)).flatten)) := by
        rw [← List.append_assoc, ← List.append_assoc]
        exact List.perm_append_comm.append_right _
    _ = buckets.flatten := by
        rw [← List.flatten_cons, ← List.flatten_append, ← parts]

theorem sortByDistance_known {sorting : Sorting} {distanceTo : IdentityRef → Except Fault Int}
    {items : List IdentityRef}
    (known : ∀ item ∈ items, ∃ distance, distanceTo item = .ok distance) :
    sortByDistance sorting distanceTo items =
      .ok (sorting (compareDistances fun item => (distanceTo item).toOption.getD 0) items) := by
  obtain ⟨values, taken⟩ := (mapM_ok_iff _ _).mpr known
  unfold sortByDistance
  rw [taken]
  split <;> rfl

section Target
variable {beyond : Data} {localHashname : String} {mesh : Mesh} {target : IdentityRef}
variable (own : IsHashname localHashname) (placed : Placed beyond localHashname mesh)
  (named : IsHashname (mesh.hashname target))
include own placed named

/-- The distance of an entry is at most the longer of the two distances from the
local identity, and equal to it if these differ. -/
theorem seekDistance_entry {index : Nat} {bucket : List IdentityRef} {entry : IdentityRef}
    (found : mesh.table.buckets[index]? = some bucket) (member : entry ∈ bucket) :
    ∃ distance : Nat, seekDistance beyond mesh target entry = .ok (distance : Int) ∧
      distance ≤ max index (home beyond localHashname (mesh.hashname target)) ∧
      (index ≠ home beyond localHashname (mesh.hashname target) →
        distance = max index (home beyond localHashname (mesh.hashname target))) := by
  have entryNamed := placed.named_member found member
  have place := placed.atHome index bucket found entry member
  rw [home_eq own entryNamed] at place
  refine ⟨_, distanceFrom_hashname beyond named entryNamed, ?_⟩
  rw [home_eq own named, ← place]
  have ultra := logDistance_ultra (hashValue (mesh.hashname target)) (hashValue localHashname)
    (hashValue (mesh.hashname entry))
  rw [logDistance_comm _ (hashValue localHashname)] at ultra
  refine ⟨by omega, fun different => ?_⟩
  rcases Nat.lt_or_gt_of_ne different with below | above
  · rw [Nat.max_eq_right (Nat.le_of_lt below), logDistance_comm]
    exact logDistance_isosceles below
  · rw [Nat.max_eq_left (Nat.le_of_lt above)]
    exact logDistance_isosceles above

theorem nearer_entries {index other : Nat} {bucket otherBucket : List IdentityRef}
    (found : mesh.table.buckets[index]? = some bucket)
    (otherFound : mesh.table.buckets[other]? = some otherBucket)
    (different : other ≠ home beyond localHashname (mesh.hashname target))
    (before : index ≤ max other (home beyond localHashname (mesh.hashname target))) :
    ∀ one ∈ bucket, ∀ two ∈ otherBucket, Nearer (seekDistance beyond mesh target) one two := by
  intro one member two otherMember
  obtain ⟨near, nearKnown, nearBound, _⟩ := seekDistance_entry own placed named found member
  obtain ⟨far, farKnown, _, farExact⟩ :=
    seekDistance_entry own placed named otherFound otherMember
  refine ⟨near, far, nearKnown, farKnown, ?_⟩
  have exact_ := farExact different
  omega

theorem visits_nearer {bucket ownSorted : List IdentityRef}
    (found : mesh.table.buckets[home beyond localHashname (mesh.hashname target)]? = some bucket)
    (sorted : ownSorted.Perm bucket) :
    (visits mesh.table.buckets (home beyond localHashname (mesh.hashname target))
      ownSorted).Pairwise fun earlier later =>
        ∀ one ∈ earlier, ∀ two ∈ later, Nearer (seekDistance beyond mesh target) one two := by
  have lower : ∀ bucket ∈
      (mesh.table.buckets.take (home beyond localHashname (mesh.hashname target))).reverse,
      ∃ index < home beyond localHashname (mesh.hashname target),
        mesh.table.buckets[index]? = some bucket := by
    intro bucket member
    obtain ⟨index, inside, same⟩ := List.mem_iff_getElem.mp (List.mem_reverse.mp member)
    rw [List.length_take] at inside
    refine ⟨index, by omega, ?_⟩
    rw [← same, List.getElem_take]
    exact List.getElem?_eq_getElem (by omega)
  have upper : ∀ bucket ∈
      mesh.table.buckets.drop (home beyond localHashname (mesh.hashname target) + 1),
      ∃ index > home beyond localHashname (mesh.hashname target),
        mesh.table.buckets[index]? = some bucket := by
    intro bucket member
    obtain ⟨index, inside, same⟩ := List.mem_iff_getElem.mp member
    rw [List.length_drop] at inside
    refine ⟨home beyond localHashname (mesh.hashname target) + 1 + index, by omega, ?_⟩
    rw [← same, List.getElem_drop]
    exact List.getElem?_eq_getElem (by omega)
  unfold visits
  refine List.pairwise_cons.mpr ⟨?_, List.pairwise_append.mpr ⟨?_, ?_, ?_⟩⟩
  · intro later member one inOwn
    have inBucket := sorted.mem_iff.mp inOwn
    rcases List.mem_append.mp member with below | above
    · obtain ⟨index, smaller, place⟩ := lower later below
      exact nearer_entries own placed named found place (by omega) (by omega) one inBucket
    · obtain ⟨index, larger, place⟩ := upper later above
      exact nearer_entries own placed named found place (by omega) (by omega) one inBucket
  · apply List.pairwise_of_forall_mem_list
    intro earlier below later alsoBelow
    obtain ⟨index, smaller, place⟩ := lower earlier below
    obtain ⟨other, alsoSmaller, otherPlace⟩ := lower later alsoBelow
    exact nearer_entries own placed named place otherPlace (by omega) (by omega)
  · apply List.pairwise_iff_getElem.mpr
    intro first second inside alsoInside ordered
    rw [List.length_drop] at inside alsoInside
    rw [List.getElem_drop, List.getElem_drop]
    exact nearer_entries own placed named (List.getElem?_eq_getElem (by omega))
      (List.getElem?_eq_getElem (by omega)) (by omega) (by omega)
  · intro earlier below later above
    obtain ⟨index, smaller, place⟩ := lower earlier below
    obtain ⟨other, larger, otherPlace⟩ := upper later above
    exact nearer_entries own placed named place otherPlace (by omega) (by omega)

/-! ## Five entries -/

variable (sorting : Sorting)

theorem closeInBucket_ok {bucket : List IdentityRef}
    (found : mesh.table.buckets[home beyond localHashname (mesh.hashname target)]? = some bucket) :
    ∃ comparator,
      closeInBucket beyond sorting mesh target = .ok ((sorting comparator bucket).take 5) := by
  obtain ⟨_, place, indexed⟩ := @ownBucket_found beyond _ _ _ own placed named
  rw [found] at place
  cases place
  have known : ∀ item ∈ bucket, ∃ distance,
      seekDistance beyond mesh target item = .ok distance := by
    intro item member
    obtain ⟨distance, itemKnown, _⟩ := seekDistance_entry own placed named found member
    exact ⟨distance, itemKnown⟩
  refine ⟨compareDistances fun item => (seekDistance beyond mesh target item).toOption.getD 0, ?_⟩
  unfold closeInBucket
  rw [localDistance_ok own placed named, ok_bind, indexed, ok_bind, sortByDistance_known known,
    ok_bind, ← List.take_eq_take_min, pure_eq_ok]

theorem nearbyFilling_ok {bucket : List IdentityRef}
    (found : mesh.table.buckets[home beyond localHashname (mesh.hashname target)]? = some bucket) :
    ∃ comparator filling, nearbyFilling beyond sorting mesh target = .ok filling ∧
      Filled (visits mesh.table.buckets (home beyond localHashname (mesh.hashname target))
        (sorting comparator bucket)).flatten filling := by
  obtain ⟨comparator, closest⟩ := closeInBucket_ok own placed named sorting found
  have bound := @home_lt beyond _ own _ named
  have start : Filled (sorting comparator bucket) ⟨(sorting comparator bucket).take 5, []⟩ :=
    ⟨rfl, List.forall_mem_nil _⟩
  obtain ⟨lower, down, lowerFilled⟩ := @fillDown_filled mesh.table
    (home beyond localHashname (mesh.hashname target)) _ _ (by rw [placed.count]; omega) start
  obtain ⟨all, up, filled⟩ := @fillUp_filled mesh.table
    (256 - (home beyond localHashname (mesh.hashname target) + 1))
    (home beyond localHashname (mesh.hashname target) + 1) _ _ (by rw [placed.count]; omega)
    lowerFilled
  refine ⟨comparator, all, ?_, ?_⟩
  · unfold nearbyFilling
    rw [localDistance_ok own placed named, ok_bind, closest, ok_bind, Int.toNat_natCast, down,
      ok_bind, up]
  · rw [visits, List.flatten_cons, List.flatten_append, ← List.append_assoc]
    exact filled

/-- What fills up from the visited buckets lists nobody twice. -/
theorem filled_distinct (permutes : ∀ comparator items, (sorting comparator items).Perm items)
    {filling : Filling} (computed : nearbyFilling beyond sorting mesh target = .ok filling) :
    (filling.entries.map mesh.hashname).Nodup := by
  obtain ⟨bucket, found, _⟩ := ownBucket_found own placed named
  obtain ⟨comparator, filling', again, filled⟩ := nearbyFilling_ok own placed named sorting found
  obtain rfl : filling' = filling := Except.ok.inj (again.symm.trans computed)
  have visited := visits_perm found (permutes comparator bucket)
  have distinct : ((visits mesh.table.buckets _ (sorting comparator bucket)).flatten.map
      mesh.hashname).Nodup :=
    (visited.map mesh.hashname).nodup_iff.mpr placed.distinct
  rw [filled.entries]
  exact distinct.sublist ((List.take_sublist 5 _).map _)

/-- `nearby:` returns the first five of the identities in the order of its
visits, or all if they are fewer: none twice, each bucket only behind the whole
buckets visited earlier, and these hold nothing farther from the target. The
count subtracted from 5 is never larger. -/
theorem nearby_fills_up (permutes : ∀ comparator items, (sorting comparator items).Perm items) :
    ∃ (bucket ownSorted : List IdentityRef) (filling : Filling),
      mesh.table.buckets[home beyond localHashname (mesh.hashname target)]? = some bucket ∧
      ownSorted.Perm bucket ∧
      nearbyFilling beyond sorting mesh target = .ok filling ∧
      nearby beyond sorting mesh target = .ok filling.entries ∧
      filling.entries = (visits mesh.table.buckets
        (home beyond localHashname (mesh.hashname target)) ownSorted).flatten.take 5 ∧
      filling.entries.length = min 5 mesh.table.buckets.flatten.length ∧
      (filling.entries.map mesh.hashname).Nodup ∧ (∀ count ∈ filling.counts, count ≤ 5) ∧
      (visits mesh.table.buckets (home beyond localHashname (mesh.hashname target))
        ownSorted).Pairwise fun earlier later =>
          ∀ one ∈ earlier, ∀ two ∈ later, Nearer (seekDistance beyond mesh target) one two := by
  obtain ⟨bucket, found, _⟩ := ownBucket_found own placed named
  obtain ⟨comparator, filling, computed, filled⟩ := nearbyFilling_ok own placed named sorting found
  have sorted := permutes comparator bucket
  have visited := visits_perm found sorted
  refine ⟨bucket, sorting comparator bucket, filling, found, sorted, computed, ?_,
    filled.entries, ?_, filled_distinct own placed named sorting permutes computed, filled.counts,
    visits_nearer own placed named found sorted⟩
  · rw [nearby, computed, ok_bind, pure_eq_ok]
  · rw [filled.entries, List.length_take, visited.length_eq]

end Target

theorem nearby_returns_both : ∃ (mesh : Mesh) (filling : Filling),
    (addIdentity [] threePeers 1 >>= fun mesh => addIdentity [] mesh 2) = .ok mesh ∧
      nearby [] stableSort mesh 0 = .ok filling.entries ∧ filling.entries.length = 2 ∧
      (filling.entries.map mesh.hashname).Nodup := by
  have start : Placed [] originHashname threePeers := placed_init
  obtain ⟨one, first, placed, names⟩ :=
    @addIdentity_placed [] _ threePeers 1 originHashname_is start remoteHashname_is
  obtain ⟨mesh, second, placedTwo, names'⟩ :=
    @addIdentity_placed [] _ one 2 originHashname_is placed (by rw [names]; exact farHashname_is)
  have total : (addIdentity [] threePeers 1 >>= fun mesh => addIdentity [] mesh 2).toOption.map
      (fun mesh => mesh.table.buckets.flatten.length) = some 2 := by
    decide +kernel
  have permutes : ∀ comparator items, (stableSort comparator items).Perm items :=
    fun comparator items => List.mergeSort_perm items _
  obtain ⟨_, _, filling, _, _, _, found, _, length, distinct, _⟩ :=
    @nearby_fills_up [] _ mesh 0 originHashname_is placedTwo
      (by rw [names', names]; exact originHashname_is) stableSort permutes
  rw [first, ok_bind, second] at total
  rw [first, ok_bind]
  refine ⟨mesh, filling, second, found, ?_, distinct⟩
  have two : mesh.table.buckets.flatten.length = 2 := Option.some.inj total
  rw [length, two]
  rfl

end Telehash.Nearby
