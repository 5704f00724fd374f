import Telehash.SeekRuns
import Mathlib.Data.Finset.Card
import Mathlib.Data.Finset.Dedup

/-!
How often a seek asks. The job keeps no list of the identities it has asked: one
is asked again as soon as a response names it again. As long as responses name
only hashnames the job has not had yet, each is asked once.
-/

namespace Telehash.SeekQueries
open Foundation Distance MeshBuckets Placement PendingSeek SeekRuns Runs
open Identity (IdentityRef)

def poolNames (seek : Seek) : List String := (pool seek).map seek.mesh.hashname

def queryNames (seek : Seek) : List String := (queries seek).map seek.mesh.hashname

/-- No hashname was asked twice, so the queries are no more than the hashnames
there are. -/
def QueriedOnce (search : Search) : Prop :=
  (queryNames search.seek).Nodup ∧
    ∀ hashnames : Finset String, (∀ name ∈ queryNames search.seek, name ∈ hashnames) →
      (queries search.seek).length ≤ hashnames.card

/-- A response adds each hashname once, and none that waits or was asked. -/
def AddsNew (search : Search) : Event → Prop
  | .response query packet =>
      (responder search query).isSome →
        let names := addedNames search.seek.mesh.table.localIdentity (sought search.seek) packet
        names.Nodup ∧ ∀ name ∈ names, name ∉ poolNames search.seek
  | _ => True

instance (search : Search) (event : Event) : Decidable (AddsNew search event) := by
  cases event <;> unfold AddsNew <;> infer_instance

structure Distinct (seek : Seek) : Prop where
  sound : Sound seek
  names : (poolNames seek).Nodup

section Steps
variable {seek after : Seek}

theorem pool_made (sound : Sound seek) : ∀ identity ∈ pool seek, identity < seek.nextIdentity :=
  List.forall_mem_append.mpr ⟨sound.waiting, sound.asked⟩

theorem moves_distinct (distinct : Distinct seek) (moves : Moves seek after) : Distinct after := by
  refine ⟨moves.sound, ?_⟩
  have same : poolNames after = (pool after).map seek.mesh.hashname := by
    apply List.map_congr_left
    intro identity member
    exact moves.kept.names identity (pool_made distinct.sound identity (moves.pool.subset member))
  rw [same]
  obtain ⟨part, perm, sub⟩ := moves.pool
  exact (perm.map _).nodup_iff.mp (distinct.names.sublist (sub.map _))

theorem adds_distinct {names : List String} (distinct : Distinct seek)
    (adds : Adds seek after names) (once : names.Nodup)
    (new : ∀ name ∈ names, name ∉ poolNames seek) : Distinct after := by
  obtain ⟨refs, nearby, named⟩ := adds.added
  refine ⟨adds.sound, ?_⟩
  -- identities made in between do not rename those in the pool
  have old : (pool seek).map after.mesh.hashname = poolNames seek :=
    List.map_congr_left fun identity member =>
      adds.kept.names identity (pool_made distinct.sound identity member)
  have whole : (poolNames after).Perm (names ++ poolNames seek) := by
    rw [← old, ← named, ← List.map_append]
    refine List.Perm.map _ ?_
    rw [pool, pool, nearby, adds.queries, List.append_assoc]
    exact (List.perm_append_comm_assoc _ _ _)
  rw [whole.nodup_iff]
  exact List.Nodup.append once distinct.names fun name inside held => new name inside held

theorem step_distinct {beyond : Data} {search : Search} {event : Event}
    (new : AddsNew search event) (distinct : Distinct search.seek) :
    Distinct (step beyond search event).seek := by
  cases event with
  | response query packet =>
      rcases step_response beyond search query packet with
        ⟨_, same⟩ | ⟨identity, answers, ⟨after, received, same⟩ | ⟨_, _, same⟩⟩
      · rwa [same]
      · rw [same]
        obtain ⟨once, absent⟩ := new (by rw [answers]; rfl)
        obtain ⟨seen, adds, outcome⟩ := receive_spec beyond distinct.sound received
        have added := adds_distinct distinct adds once absent
        split at outcome
        · rw [outcome]
          exact ⟨sound_completed added.sound _, added.names⟩
        · exact moves_distinct added outcome
      · rwa [same]
  | pathChange identity hasActivePath =>
      exact moves_distinct distinct (pathChange_moves beyond distinct.sound identity hasActivePath)
  | discovered hashname =>
      exact moves_distinct distinct (discovered_moves beyond distinct.sound hashname)

theorem distinct_once {search : Search} (distinct : Distinct search.seek) :
    QueriedOnce search := by
  have once : (queryNames search.seek).Nodup :=
    distinct.names.sublist ((List.sublist_append_right _ _).map _)
  refine ⟨once, fun hashnames all => ?_⟩
  have within : (queryNames search.seek).toFinset ⊆ hashnames := fun name member =>
    all name (List.mem_toFinset.mp member)
  have fewer := Finset.card_le_card within
  rwa [List.toFinset_card_of_nodup once, queryNames, List.length_map] at fewer

end Steps

/-- In a table that is in order nobody is around twice. -/
theorem placed_around {beyond : Data} {localHashname : String} {mesh : Mesh} {target : IdentityRef}
    (own : IsHashname localHashname) (placed : Placed beyond localHashname mesh)
    (named : IsHashname (mesh.hashname target)) :
    ∀ entries, nearby beyond stableSort mesh target = .ok entries →
      (entries.map mesh.hashname).Nodup := by
  intro entries found
  obtain ⟨filling, computed, same⟩ := (bind_ok_iff _ _ _).mp found
  rw [← Except.ok.inj same]
  exact Nearby.filled_distinct own placed named stableSort
    (fun _ items => List.mergeSort_perm items _) computed

/-- From candidates of different hashnames, and with responses that name new
ones, every run asks each hashname at most once. -/
theorem seek_queries_once (beyond : Data) (world : World) (seek : Seek) (events : List Event)
    (begun : startSeek beyond world = .ok seek)
    (around : ∀ entries, nearby beyond stableSort world.mesh world.toIdentity = .ok entries →
      (entries.map world.mesh.hashname).Nodup)
    (new : Along (step beyond) AddsNew (started seek) events) :
    Throughout (step beyond) QueriedOnce (started seek) events := by
  obtain ⟨entries, taken, found, some_, sound, moves⟩ := startSeek_spec begun
  have first : poolNames (newSeek world taken) = taken.map world.mesh.hashname := by
    rw [poolNames, pool]
    exact congrArg (List.map world.mesh.hashname) (List.append_nil taken)
  have start : Distinct (newSeek world taken) :=
    ⟨sound, first ▸ (around entries found).sublist (some_.map _)⟩
  apply throughout_mono fun search => distinct_once
  exact throughout_invariant (fun _ _ => step_distinct) (started seek) events
    (moves_distinct start moves) new

theorem seek_queries_once_unknown :
    Throughout (step []) QueriedOnce (started oneQuery) [.response 0 (seeing ["ab,2a"])] := by
  refine seek_queries_once [] oneNeighbour oneQuery _ startSeek_oneNeighbour ?_ ?_
  · intro entries found
    cases nearby_oneNeighbour.symm.trans found
    decide
  · exact ⟨by decide +kernel, trivial⟩

/-- A neighbour that names itself is asked again. -/
theorem neighbour_queried_twice :
    startSeek [] oneNeighbour = .ok oneQuery ∧
      ¬ Throughout (step []) QueriedOnce (started oneQuery)
        [.response 0 (seeing [remoteHashname ++ ",2a"])] := by
  refine ⟨startSeek_oneNeighbour, fun once => ?_⟩
  have twice : queryNames (step [] (started oneQuery)
      (.response 0 (seeing [remoteHashname ++ ",2a"]))).seek =
      [remoteHashname, remoteHashname] := by decide +kernel
  have again := once.2.1
  rw [twice] at again
  revert again
  decide +kernel

end Telehash.SeekQueries
