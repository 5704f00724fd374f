import Telehash.KeyOrder
import Telehash.Nearby

/-!
PendingSeekJob of THMeshBuckets.m, and the order in which it and
`closeInBucket:` put identities. The comparator answers `Descending` for the
nearer of two identities, and its second branch asks the same question again,
so the sort puts the farthest first.
-/

namespace Telehash.PendingSeek
open Association Foundation Identity Distance MeshBuckets Placement Nearby KeyOrder

/-! ## The job -/

structure PendingSeekJob where
  seekingIdentity : IdentityRef
  nearby : List IdentityRef
  runningSearches : Nat
  hasCompletion : Bool

/-- A job among the identities its answers may name. -/
structure Seek where
  mesh : Mesh
  identityCache : Dictionary String IdentityRef
  nextIdentity : IdentityRef
  hasTransport : Bool
  job : PendingSeekJob
  -- what the completion was called with
  completed : List Bool

namespace Seek

def ask (seek : Seek) (identity : IdentityRef) (request : Request) : Seek :=
  { seek with mesh := seek.mesh.ask identity request }

def setNearby (seek : Seek) (nearby : List IdentityRef) : Seek :=
  { seek with job := { seek.job with nearby := nearby } }

end Seek

def identityFromHashname (seek : Seek) (hashname : String) : IdentityRef × Seek :=
  match seek.identityCache.lookup hashname with
  | some identity => (identity, seek)
  | none =>
      (seek.nextIdentity,
        { seek with
          mesh := seek.mesh.updatePeer seek.nextIdentity fun _ => withHashname hashname
          identityCache := seek.identityCache.insert hashname seek.nextIdentity
          nextIdentity := seek.nextIdentity + 1 })

def runSeek (seek : Seek) : Seek :=
  match seek.job.nearby with
  | [] => seek
  | identity :: rest =>
      let running := { seek with
        job := { seek.job with
          nearby := rest
          runningSearches := seek.job.runningSearches + 1 } }
      if (seek.mesh.peers identity).hasActivePath then
        running.ask identity (.seek (seek.mesh.hashname seek.job.seekingIdentity))
      else running

def componentsSeparatedByComma (text : String) : List String :=
  (text.toList.splitOn ',').map String.ofList

/-- What an entry of `see` does. Anything but a string has no components. -/
def seeEntry (responder : IdentityRef) (seek : Seek) (entry : Json) :
    Except Fault (Bool × Seek) :=
  match entry with
  | .string seeString =>
      match componentsSeparatedByComma seeString with
      | hashname :: csid :: address =>
          let sought := seek.job.seekingIdentity
          if hashname = seek.mesh.hashname sought then
            let found := (seek.ask sought (.addVia responder)).ask sought (.suggestCipherSet csid)
            match address with
            | [] => .ok (true, found)
            | ip :: others =>
                if ¬found.hasTransport then .ok (true, found)
                else
                  match others with
                  | [] => .error .range
                  | port :: _ => .ok (true, found.ask sought (.addPath ip port))
          else if some hashname = seek.mesh.table.localIdentity then .ok (false, seek)
          else
            let (nearIdentity, known) := identityFromHashname seek hashname
            let near :=
              (known.ask nearIdentity (.addVia responder)).ask nearIdentity (.suggestCipherSet csid)
            .ok (false, near.setNearby (near.job.nearby ++ [nearIdentity]))
      | _ => .ok (false, seek)
  | _ => .error .unrecognizedSelector

/-- The entries in order until one names the sought hashname. -/
def seeEntries (responder : IdentityRef) (seek : Seek) : List Json → Except Fault (Bool × Seek)
  | [] => .ok (false, seek)
  | entry :: rest => do
      let (foundIt, seen) ← seeEntry responder seek entry
      if foundIt then return (true, seen) else seeEntries responder seen rest

variable (beyond : Data)

/-- `sortUsingComparator:` of the candidates. -/
def resort (sorting : Sorting) (seek : Seek) : Except Fault Seek := do
  let nearby ← sortByDistance sorting (seekDistance beyond seek.mesh seek.job.seekingIdentity)
    seek.job.nearby
  return seek.setNearby nearby

/-- The loop after the first `runSeek`. With no candidate left `count - 1`
wraps, so the bound is 3. -/
def runSeeks : (turns i : Nat) → Seek → Seek
  | 0, _, seek => seek
  | turns + 1, i, seek =>
      if i < min 3 ((seek.job.nearby.length + (uintModulus - 1)) % uintModulus) then
        runSeeks turns (i + 1) (runSeek seek)
      else seek

def sees (packet : JsonDictionary) : Except Fault (List Json) :=
  match packet.lookup "see" with
  | none => .ok []
  | some (.array entries) => .ok entries
  | some _ => .error .unrecognizedSelector

/-- `channel:handlePacket:` -/
def handlePacket (sorting : Sorting) (responder : IdentityRef) (packet : JsonDictionary)
    (seek : Seek) : Except Fault Seek := do
  if (packet.lookup "err").isSome then return seek
  let (foundIt, seen) ← seeEntries responder seek (← sees packet)
  if foundIt then
    return { seen with
      completed := if seen.job.hasCompletion then seen.completed ++ [true] else seen.completed }
  let sorted ← resort beyond sorting seen
  if 0 < sorted.job.nearby.length then
    let started := runSeek sorted
    return runSeeks 3 started.job.runningSearches started
  else return sorted

/-! ## The order of a sort -/

section Order
variable (distanceTo : IdentityRef → Except Fault Int) (items : List IdentityRef)

/-- Every distance can be taken. A single entry is compared with nothing. -/
def Comparable : Prop :=
  items.length ≤ 1 ∨ ∀ item ∈ items, ∃ distance, distanceTo item = .ok distance

def Equidistant : Prop :=
  items.length ≤ 1 ∨ ∃ distance, ∀ item ∈ items, distanceTo item = .ok distance

/-- The entries taken from a list are the closest of it, as many as there are
up to five. -/
def TakesClosest (taken : List IdentityRef) : Prop :=
  ∃ left, (taken ++ left).Perm items ∧ taken.length = min 5 items.length ∧
    ∀ one ∈ taken, ∀ other ∈ left, Nearer distanceTo one other

def distanceKey (item : IdentityRef) : Int := (distanceTo item).toOption.getD 0

variable {distanceTo items}

theorem distanceKey_ok {item : IdentityRef} {distance : Int}
    (known : distanceTo item = .ok distance) : distanceKey distanceTo item = distance := by
  rw [distanceKey, known]
  rfl

theorem nearer_iff {one other : IdentityRef} (known : ∃ distance, distanceTo one = .ok distance)
    (alsoKnown : ∃ distance, distanceTo other = .ok distance) :
    Nearer distanceTo one other ↔ distanceKey distanceTo one ≤ distanceKey distanceTo other := by
  obtain ⟨near, one_⟩ := known
  obtain ⟨far, other_⟩ := alsoKnown
  rw [distanceKey_ok one_, distanceKey_ok other_, Nearer, one_, other_]
  constructor
  · rintro ⟨_, _, same, alsoSame, ordered⟩
    cases same
    cases alsoSame
    exact ordered
  · exact fun ordered => ⟨near, far, rfl, rfl, ordered⟩

theorem equidistant_iff :
    Equidistant distanceTo items ↔
      Comparable distanceTo items ∧ Constant (distanceKey distanceTo) items := by
  constructor
  · rintro (short | ⟨distance, known⟩)
    · exact ⟨Or.inl short, constant_short _ short⟩
    · refine ⟨Or.inr fun item member => ⟨distance, known item member⟩, ?_⟩
      intro one member other alsoMember
      rw [distanceKey_ok (known one member), distanceKey_ok (known other alsoMember)]
  · rintro ⟨short | known, constant⟩
    · exact Or.inl short
    · cases items with
      | nil => exact Or.inl (Nat.zero_le 1)
      | cons first rest =>
          refine Or.inr ⟨distanceKey distanceTo first, fun item member => ?_⟩
          obtain ⟨distance, itemKnown⟩ := known item member
          rw [itemKnown, constant first List.mem_cons_self item member, distanceKey_ok itemKnown]

/-- The comparator never answers `Ascending`: its merge keeps two entries in
their order if the second is no farther away. -/
theorem stableSort_compareDistances (distance : IdentityRef → Int) (items : List IdentityRef) :
    stableSort (compareDistances distance) items =
      items.mergeSort fun one other => decide (distance other ≤ distance one) := by
  have same : ∀ one other, compareDistances distance one other ≠ .orderedDescending ↔
      distance other ≤ distance one := by
    intro one other
    unfold compareDistances
    by_cases nearer : distance one < distance other
    · simp [nearer]
    · simp [nearer, Int.not_lt.mp nearer]
  simp only [stableSort, same]

theorem sortByDistance_ok_iff (sorted : List IdentityRef) :
    sortByDistance stableSort distanceTo items = .ok sorted ↔
      Comparable distanceTo items ∧ sorted = items.mergeSort fun one other =>
        decide (distanceKey distanceTo other ≤ distanceKey distanceTo one) := by
  have sort : stableSort (compareDistances fun item => (distanceTo item).toOption.getD 0) items =
      items.mergeSort fun one other =>
        decide (distanceKey distanceTo other ≤ distanceKey distanceTo one) :=
    stableSort_compareDistances (distanceKey distanceTo) items
  unfold sortByDistance Comparable
  rw [sort]
  by_cases several : 2 ≤ items.length
  · have long : ¬items.length ≤ 1 := by omega
    rw [if_pos several, ← mapM_ok_iff distanceTo items]
    cases values : items.mapM distanceTo with
    | error fault => simp [long]
    | ok found => simp [eq_comm]
  · have short : items.length ≤ 1 := by omega
    simp [several, short, eq_comm]

/-- In a list whose distances are known, closer is a smaller key. -/
theorem pairwise_nearer_iff {sorted : List IdentityRef}
    (comparable : Comparable distanceTo sorted) :
    sorted.Pairwise (Nearer distanceTo) ↔
      sorted.Pairwise fun one other =>
        distanceKey distanceTo one ≤ distanceKey distanceTo other := by
  rcases comparable with short | known
  · match sorted, short with
    | [], _ => simp
    | [only], _ => simp
  · constructor <;> intro ordered <;> apply ordered.imp_of_mem <;>
      intro one other member alsoMember
    · exact (nearer_iff (known one member) (known other alsoMember)).mp
    · exact (nearer_iff (known one member) (known other alsoMember)).mpr

theorem comparable_perm {others : List IdentityRef} (same : items.Perm others)
    (comparable : Comparable distanceTo items) : Comparable distanceTo others := by
  rcases comparable with short | known
  · exact Or.inl (same.length_eq ▸ short)
  · exact Or.inr fun item member => known item (same.mem_iff.mpr member)

/-- The sort puts the closest first only if all entries are at one distance. -/
theorem sorts_closest_first_iff :
    (∃ sorted, sortByDistance stableSort distanceTo items = .ok sorted ∧ sorted.Perm items ∧
      sorted.Pairwise (Nearer distanceTo)) ↔ Equidistant distanceTo items := by
  have perm := List.mergeSort_perm items fun one other =>
    decide (distanceKey distanceTo other ≤ distanceKey distanceTo one)
  have descending := mergeSort_descending (distanceKey distanceTo) items
  rw [equidistant_iff]
  constructor
  · rintro ⟨sorted, result, _, ascending⟩
    obtain ⟨comparable, rfl⟩ := (sortByDistance_ok_iff sorted).mp result
    rw [pairwise_nearer_iff (comparable_perm perm.symm comparable),
      ascending_iff_constant descending, constant_perm _ perm] at ascending
    exact ⟨comparable, ascending⟩
  · rintro ⟨comparable, constant⟩
    refine ⟨_, (sortByDistance_ok_iff _).mpr ⟨comparable, rfl⟩, perm, ?_⟩
    rw [pairwise_nearer_iff (comparable_perm perm.symm comparable),
      ascending_iff_constant descending, constant_perm _ perm]
    exact constant

/-- The first entries of the sort are the closest ones only if nothing is left
out or all entries are at one distance. -/
theorem take_closest_iff {count : Nat} (positive : 0 < count) :
    (∃ sorted, sortByDistance stableSort distanceTo items = .ok sorted ∧
      ∀ one ∈ sorted.take count, ∀ other ∈ sorted.drop count, Nearer distanceTo one other) ↔
      Comparable distanceTo items ∧ (items.length ≤ count ∨ Equidistant distanceTo items) := by
  have perm := List.mergeSort_perm items fun one other =>
    decide (distanceKey distanceTo other ≤ distanceKey distanceTo one)
  have smallest := take_smallest_iff positive (mergeSort_descending (distanceKey distanceTo) items)
  rw [constant_perm _ perm, perm.length_eq] at smallest
  rw [equidistant_iff]
  constructor
  · rintro ⟨sorted, result, closest⟩
    obtain ⟨comparable, rfl⟩ := (sortByDistance_ok_iff sorted).mp result
    refine ⟨comparable, (smallest.mp ?_).imp_right fun constant => ⟨comparable, constant⟩⟩
    intro one member other alsoMember
    obtain ⟨near, far, nearKnown, farKnown, ordered⟩ := closest one member other alsoMember
    rwa [distanceKey_ok nearKnown, distanceKey_ok farKnown]
  · rintro ⟨comparable, few⟩
    refine ⟨_, (sortByDistance_ok_iff _).mpr ⟨comparable, rfl⟩, ?_⟩
    have ordered := smallest.mpr (few.imp_right And.right)
    intro one member other alsoMember
    rcases comparable with short | known
    · have none : (items.mergeSort fun one other =>
          decide (distanceKey distanceTo other ≤ distanceKey distanceTo one)).length ≤ count := by
        rw [perm.length_eq]
        omega
      rw [List.drop_eq_nil_of_le none] at alsoMember
      cases alsoMember
    · rw [nearer_iff (known one (perm.mem_iff.mp (List.mem_of_mem_take member)))
        (known other (perm.mem_iff.mp (List.mem_of_mem_drop alsoMember)))]
      exact ordered one member other alsoMember

end Order

/-! ## The closest first -/

variable (mesh : Mesh) (target : IdentityRef)

theorem closeInBucket_eq (sorting : Sorting) :
    closeInBucket beyond sorting mesh target = do
      let bucket ← ownBucket beyond mesh target
      let results ← sortByDistance sorting (seekDistance beyond mesh target) bucket
      return results.take (min 5 results.length) := by
  unfold closeInBucket ownBucket
  rw [bind_assoc]

theorem takesClosest_iff {distanceTo : IdentityRef → Except Fault Int}
    {items sorted : List IdentityRef} (perm : sorted.Perm items) :
    TakesClosest distanceTo items (sorted.take (min 5 sorted.length)) ↔
      ∀ one ∈ sorted.take 5, ∀ other ∈ sorted.drop 5, Nearer distanceTo one other := by
  have whole : sorted.take (min 5 sorted.length) = sorted.take 5 := by
    rw [← List.take_eq_take_min]
  rw [whole]
  constructor
  · rintro ⟨left, same, _, closest⟩ one member other alsoMember
    apply closest one member other
    have parts : (sorted.take 5 ++ left).Perm (sorted.take 5 ++ sorted.drop 5) := by
      rw [List.take_append_drop]
      exact same.trans perm.symm
    exact ((List.perm_append_left_iff _).mp parts).mem_iff.mpr alsoMember
  · intro closest
    refine ⟨sorted.drop 5, ?_, ?_, closest⟩
    · rw [List.take_append_drop]
      exact perm
    · rw [List.length_take, perm.length_eq]

/-- `closeInBucket:` returns the closest of its bucket. -/
def ReturnsClosest : Prop :=
  ∃ bucket results, ownBucket beyond mesh target = .ok bucket ∧
    closeInBucket beyond stableSort mesh target = .ok results ∧
    TakesClosest (seekDistance beyond mesh target) bucket results

theorem closeInBucket_closest_iff :
    ReturnsClosest beyond mesh target ↔
      ∃ bucket, ownBucket beyond mesh target = .ok bucket ∧
        Comparable (seekDistance beyond mesh target) bucket ∧
        (bucket.length ≤ 5 ∨ Equidistant (seekDistance beyond mesh target) bucket) := by
  unfold ReturnsClosest
  apply exists_congr
  intro bucket
  rw [← take_closest_iff (Nat.succ_pos 4), exists_and_left]
  apply and_congr_right
  intro own
  rw [closeInBucket_eq, own, ok_bind]
  constructor
  · rintro ⟨results, computed, closest⟩
    obtain ⟨sorted, result, taken⟩ := (bind_ok_iff _ _ _).mp computed
    have perm : sorted.Perm bucket := by
      rw [((sortByDistance_ok_iff sorted).mp result).2]
      exact List.mergeSort_perm _ _
    rw [← Except.ok.inj taken, takesClosest_iff perm] at closest
    exact ⟨sorted, result, closest⟩
  · rintro ⟨sorted, result, closest⟩
    have perm : sorted.Perm bucket := by
      rw [((sortByDistance_ok_iff sorted).mp result).2]
      exact List.mergeSort_perm _ _
    exact ⟨_, by rw [result, ok_bind, pure_eq_ok], (takesClosest_iff perm).mpr closest⟩

/-- `runSeek` takes one candidate and sends it the query, and leaves none closer. -/
def RunsClosest (distanceTo : IdentityRef → Except Fault Int) (seek : Seek) : Prop :=
  seek.job.nearby ≠ [] → ∃ candidate,
    seek.job.nearby = candidate :: (runSeek seek).job.nearby ∧
      (runSeek seek).mesh.asked = seek.mesh.asked ++
        [(candidate, .seek (seek.mesh.hashname seek.job.seekingIdentity))] ∧
      ∀ other ∈ (runSeek seek).job.nearby, Nearer distanceTo candidate other

/-- The first of the candidates, if there is one, has an active path. -/
def FirstReachable (seek : Seek) : Prop :=
  ∀ first ∈ seek.job.nearby.head?, (seek.mesh.peers first).hasActivePath = true

-- Without an active path the candidate is gone, and nothing is asked.
theorem runSeek_takes {seek : Seek} {identity : IdentityRef} {rest : List IdentityRef}
    (candidates : seek.job.nearby = identity :: rest) :
    (runSeek seek).job.nearby = rest ∧
      (runSeek seek).mesh.asked = seek.mesh.asked ++
        if (seek.mesh.peers identity).hasActivePath then
          [(identity, .seek (seek.mesh.hashname seek.job.seekingIdentity))] else [] := by
  unfold runSeek
  rw [candidates]
  dsimp only
  split
  · exact ⟨rfl, rfl⟩
  · exact ⟨rfl, (List.append_nil _).symm⟩

theorem runsClosest_iff {distanceTo : IdentityRef → Except Fault Int} (seek : Seek) :
    RunsClosest distanceTo seek ↔
      (∀ one ∈ seek.job.nearby.take 1, ∀ other ∈ seek.job.nearby.drop 1,
        Nearer distanceTo one other) ∧ FirstReachable seek := by
  unfold RunsClosest FirstReachable
  cases candidates : seek.job.nearby with
  | nil => simp
  | cons identity rest =>
      obtain ⟨left, asks⟩ := runSeek_takes candidates
      rw [left, asks, List.take_succ_cons, List.take_zero, List.head?_cons]
      constructor
      · intro runs
        obtain ⟨candidate, same, asked, closest⟩ := runs (List.cons_ne_nil _ _)
        rw [List.cons.injEq] at same
        constructor
        · intro one member
          rw [List.mem_singleton.mp member, same.1]
          exact closest
        · rintro _ ⟨⟩
          by_contra unreachable
          rw [if_neg unreachable] at asked
          cases List.append_cancel_left asked
      · rintro ⟨closest, reachable⟩ _
        refine ⟨identity, rfl, ?_, closest identity List.mem_cons_self⟩
        rw [if_pos (reachable identity rfl)]

/-- Entries at one distance stay in their order. -/
theorem sort_equidistant {distanceTo : IdentityRef → Except Fault Int}
    {items sorted : List IdentityRef} (equidistant : Equidistant distanceTo items)
    (result : sortByDistance stableSort distanceTo items = .ok sorted) : sorted = items := by
  rw [((sortByDistance_ok_iff sorted).mp result).2]
  refine List.mergeSort_of_pairwise (List.pairwise_of_forall_mem_list ?_)
  intro one member other alsoMember
  exact decide_eq_true (le_of_eq
    ((equidistant_iff.mp equidistant).2 other alsoMember one member))

/-- The `runSeek` behind a resort asks the closest candidate only if all
candidates are at one distance and the first of them has an active path. -/
theorem runSeek_closest_iff (seek : Seek) :
    (∃ resorted, resort beyond stableSort seek = .ok resorted ∧
      RunsClosest (seekDistance beyond seek.mesh seek.job.seekingIdentity) resorted) ↔
      Equidistant (seekDistance beyond seek.mesh seek.job.seekingIdentity) seek.job.nearby ∧
        FirstReachable seek := by
  have short : Comparable (seekDistance beyond seek.mesh seek.job.seekingIdentity) seek.job.nearby ∧
      (seek.job.nearby.length ≤ 1 ∨
        Equidistant (seekDistance beyond seek.mesh seek.job.seekingIdentity) seek.job.nearby) ↔
      Equidistant (seekDistance beyond seek.mesh seek.job.seekingIdentity) seek.job.nearby := by
    constructor
    · rintro ⟨_, few | same⟩
      · exact Or.inl few
      · exact same
    · exact fun same => ⟨(equidistant_iff.mp same).1, Or.inr same⟩
  have first := (@take_closest_iff (seekDistance beyond seek.mesh seek.job.seekingIdentity)
    seek.job.nearby 1 Nat.one_pos).trans short
  unfold resort
  constructor
  · rintro ⟨resorted, computed, runs⟩
    obtain ⟨sorted, result, taken⟩ := (bind_ok_iff _ _ _).mp computed
    rw [← Except.ok.inj taken, runsClosest_iff] at runs
    have equidistant := first.mp ⟨sorted, result, runs.1⟩
    refine ⟨equidistant, ?_⟩
    rw [sort_equidistant equidistant result] at runs
    exact runs.2
  · rintro ⟨equidistant, reachable⟩
    obtain ⟨sorted, result, closest⟩ := first.mpr equidistant
    refine ⟨_, by rw [result, ok_bind, pure_eq_ok], (runsClosest_iff _).mpr ⟨closest, ?_⟩⟩
    rw [sort_equidistant equidistant result]
    exact reachable

/-- A sort by distance puts the closest first exactly if all its entries are at
one distance of the target; then alone, and if that candidate has an active path,
does the next `runSeek` ask the closest candidate. `closeInBucket:` returns the
closest of a bucket exactly if they are, or if it leaves out none. -/
theorem distance_sorts_iff (items : List IdentityRef) (seek : Seek) :
    ((∃ sorted, sortByDistance stableSort (seekDistance beyond mesh target) items = .ok sorted ∧
      sorted.Perm items ∧ sorted.Pairwise (Nearer (seekDistance beyond mesh target))) ↔
        Equidistant (seekDistance beyond mesh target) items) ∧
      (ReturnsClosest beyond mesh target ↔
        ∃ bucket, ownBucket beyond mesh target = .ok bucket ∧
          Comparable (seekDistance beyond mesh target) bucket ∧
          (bucket.length ≤ 5 ∨ Equidistant (seekDistance beyond mesh target) bucket)) ∧
      ((∃ resorted, resort beyond stableSort seek = .ok resorted ∧
        RunsClosest (seekDistance beyond seek.mesh seek.job.seekingIdentity) resorted) ↔
          Equidistant (seekDistance beyond seek.mesh seek.job.seekingIdentity)
            seek.job.nearby ∧ FirstReachable seek) :=
  ⟨sorts_closest_first_iff, closeInBucket_closest_iff beyond mesh target,
    runSeek_closest_iff beyond seek⟩

/-- Of two identities at the distances 241 and 255 the nearer does not come first. -/
theorem nearer_identity_sorted_last :
    seekDistance [] threePeers 0 1 = .ok 241 ∧ seekDistance [] threePeers 0 2 = .ok 255 ∧
      ¬∃ sorted, sortByDistance stableSort (seekDistance [] threePeers 0) [1, 2] = .ok sorted ∧
        sorted.Perm [1, 2] ∧ sorted.Pairwise (Nearer (seekDistance [] threePeers 0)) := by
  have near : seekDistance [] threePeers 0 1 = .ok 241 := by decide +kernel
  have far : seekDistance [] threePeers 0 2 = .ok 255 := by decide +kernel
  refine ⟨near, far, ?_⟩
  rw [sorts_closest_first_iff]
  rintro (short | ⟨distance, known⟩)
  · exact absurd short (by decide)
  · have one := known 1 (by decide)
    have other := known 2 (by decide)
    rw [near] at one
    rw [far, ← one] at other
    cases other

end Telehash.PendingSeek
