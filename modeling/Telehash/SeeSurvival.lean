import Telehash.LinkSees
import Telehash.SeekCompletion
import Telehash.SeekQueries

/-!
What see lists do to their two readers, the link handler and PendingSeekJob. Both
look at a line of two fields or more by its first one; how many fields there
are, how long the first one is and what the port says is checked by neither.
-/

namespace Telehash.SeeSurvival
open Association Foundation Distance LogDistance MeshBuckets PendingSeek SeekRuns SeeStrings
open EntryLoop LinkSees Runs
open SeekCompletion (seeEntry_ok_iff readable)
open Identity (IdentityRef)

/-! ## A list survived -/

section Source
variable (beyond : Data) (order : ByteOrder) (stack : SockaddrIn) (transportPort : Nat)
  (responder : IdentityRef)

/-- The link handler raises nothing at a line, compares only digits that are
there, and leaves out a line that is not well formed. -/
structure LinkTreats (linking : Linking) (line : String) : Prop where
  safe : ∃ result, seeLine beyond order stack transportPort responder linking line = .ok result
  reads : ∀ hashname, namedBy line = some hashname →
    some hashname ≠ linking.mesh.table.localIdentity →
    ∀ localHashname, linking.mesh.table.localIdentity = some localHashname →
      DistanceWithin localHashname hashname
  skips : ¬WellFormed line →
    seeLine beyond order stack transportPort responder linking line = .ok (false, linking)

def LinkSurvives (linking : Linking) (lines : List String) : Prop :=
  EachMet (seeLine beyond order stack transportPort responder)
    (LinkTreats beyond order stack transportPort responder) linking lines

/-- The body of the loop of the job for a line. -/
def seekLine (seek : Seek) (line : String) : Except Fault (Bool × Seek) :=
  seeEntry responder seek (.string line)

structure SeekTreats (seek : Seek) (line : String) : Prop where
  safe : ∃ result, seekLine responder seek line = .ok result
  skips : ¬WellFormed line → seekLine responder seek line = .ok (false, seek)

/-- The sort of two candidates or more compares only digits that are there. -/
def SortReads (seek : Seek) : Prop :=
  2 ≤ seek.job.nearby.length → ∀ identity ∈ seek.job.nearby,
    DistanceWithin (sought seek) (seek.mesh.hashname identity)

/-- The job raises nothing at a response, reads only what is there, and leaves
out the lines that are not well formed. -/
structure SeekSurvives (seek : Seek) (lines : List String) : Prop where
  each : EachMet (seekLine responder) (SeekTreats responder) seek lines
  sort : ∀ seen, loop (seekLine responder) seek lines = .ok (false, seen) → SortReads seen
  handled : ∃ after, handlePacket beyond stableSort responder (seeing lines) seek = .ok after

/-- A list that came in a link packet or in the response to a seek. -/
inductive Received where
  | link (responder : IdentityRef) (lines : List String)
  | seek (responder : IdentityRef) (lines : List String)

def take (linking : Linking) : Received → Linking
  | .link responder lines =>
      match seeLoop beyond order stack transportPort responder linking lines with
      | .ok (_, after) => after
      | .error _ => linking
  | .seek responder lines =>
      match handlePacket beyond stableSort responder (seeing lines) linking.toSeek with
      | .ok after => { linking with toSeek := after }
      | .error _ => linking

def Survives (linking : Linking) : Received → Prop
  | .link responder lines => LinkSurvives beyond order stack transportPort responder linking lines
  | .seek responder lines => SeekSurvives beyond responder linking.toSeek lines

end Source

/-! ## What the readers pass by -/

section Conditions
variable (beyond : Data) (localHashname : String) (seek : Seek)

/-- The link handler looks no further at a line that names the local identity,
nor at one that names an identity with a path or a link. -/
def LinkSkips (line : String) : Prop :=
  ∀ hashname, namedBy line = some hashname →
    some hashname = seek.mesh.table.localIdentity ∨
      linkedTo seek hashname = true ∧ DistanceWithin localHashname hashname

/-- The job looks no further at a line that names the local identity, unless it seeks that. -/
def SeekSkips (line : String) : Prop :=
  ∀ hashname, namedBy line = some hashname →
    hashname ≠ sought seek ∧ some hashname = seek.mesh.table.localIdentity

/-- A line that names the sought hashname is the last one the job comes to. -/
def endsSeek (line : String) : Bool := entryNames (sought seek) (.string line)

/-- Every line that a reader comes to is well formed or passed by. -/
def Meets (linking : Linking) : Received → Prop
  | .link _ lines => ∀ line ∈ reached (endsLoop beyond localHashname linking.toSeek) lines,
      WellFormed line ∨ LinkSkips localHashname linking.toSeek line
  | .seek _ lines => ∀ line ∈ reached (endsSeek linking.toSeek) lines,
      WellFormed line ∨ SeekSkips linking.toSeek line

/-- The table is one of 256 buckets around the local identity, what is cached
was made, and what is sought or waits is named by 64 digits. -/
structure Ready (linking : Linking) : Prop where
  around : linking.mesh.table.localIdentity = some localHashname
  count : linking.mesh.table.buckets.length = 256
  sound : Sound linking.toSeek
  made : ∀ identity ∈ linking.opened, identity < linking.nextIdentity
  sought : IsHashname (sought linking.toSeek)
  named : ∀ identity ∈ pool linking.toSeek, IsHashname (linking.mesh.hashname identity)

end Conditions

/-! ## The link handler -/

section Link
variable {beyond : Data} {order : ByteOrder} {stack : SockaddrIn} {transportPort : Nat}
  {responder : IdentityRef} {localHashname : String} {start : Seek} {linking : Linking}
  (own : IsHashname localHashname)
  (around : start.mesh.table.localIdentity = some localHashname)
  (count : start.mesh.table.buckets.length = 256)
include own around count

/-- The handler at a line whose hashname can be compared. -/
theorem seeLine_compared (steady : Steady start linking) {line hashname : String}
    (named : namedBy line = some hashname)
    (remote : some hashname ≠ start.mesh.table.localIdentity)
    (within : DistanceWithin localHashname hashname) :
    ∃ identity suggested via address,
      seeLine beyond order stack transportPort responder linking line =
        if linkedTo start hashname then .ok (false, linking)
        else if hasRoom beyond localHashname start hashname then do
          let pathed ← seePath order stack transportPort identity address via
          return (false, { toSeek := pathed, opened := linking.opened ++ [identity] })
        else .ok (true, { linking with toSeek := suggested }) := by
  have fields : ∃ csid address, componentsSeparatedByComma line = hashname :: csid :: address := by
    unfold namedBy at named
    split at named
    · rename_i csid address fields
      cases named
      exact ⟨csid, address, fields⟩
    · cases named
  obtain ⟨csid, address, fields⟩ := fields
  obtain ⟨index, small, measured⟩ := distanceFrom_within own within
  cases made : identityFromHashname linking.toSeek hashname with
  | mk identity seek =>
      have step := @seeLine_eq beyond order stack transportPort responder _ _ steady.sound
        (by rw [steady.kept.table]; exact around) _ _ _ _ fields
        (by rw [steady.kept.table]; exact remote) _ (measured beyond)
        (by rw [steady.kept.table, count]; exact small) _ _ made
      rw [steady.links, hasRoom_steady steady] at step
      exact ⟨identity, _, _, address, step⟩

/-- A line that is passed by changes nothing. -/
theorem seeLine_skipped (steady : Steady start linking) {line : String}
    (skips : LinkSkips localHashname start line) :
    seeLine beyond order stack transportPort responder linking line = .ok (false, linking) := by
  by_cases unread : ∀ hashname, namedBy line = some hashname →
      some hashname = start.mesh.table.localIdentity
  · apply seeLine_unread
    rw [steady.kept.table]
    exact unread
  · push Not at unread
    obtain ⟨hashname, named, remote⟩ := unread
    obtain ⟨linked, within⟩ := (skips hashname named).resolve_left remote
    obtain ⟨_, _, _, _, step⟩ := @seeLine_compared beyond order stack transportPort responder _ _ _
      own around count steady _ _ named remote within
    rw [step, if_pos linked]

/-- A line that changes nothing was passed by. -/
theorem linkSkips_of_unchanged (steady : Steady start linking) {line : String}
    (treats : LinkTreats beyond order stack transportPort responder linking line)
    (malformed : ¬WellFormed line) : LinkSkips localHashname start line := by
  intro hashname named
  by_cases itself : some hashname = start.mesh.table.localIdentity
  · exact Or.inl itself
  · have within := treats.reads hashname named (by rw [steady.kept.table]; exact itself)
      localHashname (by rw [steady.kept.table]; exact around)
    obtain ⟨identity, _, _, _, step⟩ := @seeLine_compared beyond order stack transportPort responder
      _ _ _ own around count steady _ _ named itself within
    have unchanged := treats.skips malformed
    rw [step] at unchanged
    split at unchanged
    case isTrue linked => exact Or.inr ⟨linked, within⟩
    case isFalse =>
      split at unchanged
      · obtain ⟨pathed, _, same⟩ := (bind_ok_iff _ _ _).mp unchanged
        -- the identity would have been opened
        have opened := congrArg (fun result => result.2.opened) (Except.ok.inj same)
        simp at opened
      · cases unchanged

theorem linkTreats_iff (steady : Steady start linking) (line : String) :
    LinkTreats beyond order stack transportPort responder linking line ↔
      WellFormed line ∨ LinkSkips localHashname start line := by
  constructor
  · intro treats
    by_cases wellFormed : WellFormed line
    · exact Or.inl wellFormed
    · exact Or.inr (linkSkips_of_unchanged own around count steady treats wellFormed)
  · rintro (wellFormed | skips)
    · obtain ⟨after, computed, _⟩ := seeLine_wellFormed own around count steady wellFormed
      refine ⟨⟨_, computed⟩, ?_, fun malformed => absurd wellFormed malformed⟩
      intro hashname named _ other same
      rw [steady.kept.table, around] at same
      cases same
      exact distanceWithin_hashname own (wellFormed_named wellFormed named)
    · have unchanged := @seeLine_skipped beyond order stack transportPort responder _ _ _ own around
        count steady _ skips
      refine ⟨⟨_, unchanged⟩, ?_, fun _ => unchanged⟩
      intro hashname named remote other same
      rw [steady.kept.table, around] at same
      cases same
      rw [steady.kept.table] at remote
      exact ((skips hashname named).resolve_left remote).2

theorem seeLine_fine (steady : Steady start linking) {line : String}
    (fine : WellFormed line ∨ LinkSkips localHashname start line) :
    ∃ after, seeLine beyond order stack transportPort responder linking line =
        .ok (endsLoop beyond localHashname start line, after) ∧ Steady start after := by
  rcases fine with wellFormed | skips
  · obtain ⟨after, computed, kept, _⟩ := seeLine_wellFormed own around count steady wellFormed
    exact ⟨after, computed, kept⟩
  · have goesOn : endsLoop beyond localHashname start line = false := by
      rw [endsLoop_eq_false_iff]
      intro hashname follows
      obtain ⟨named, looked⟩ := Option.filter_eq_some_iff.mp follows
      obtain ⟨remote, unlinked⟩ := of_decide_eq_true looked
      exact absurd ((skips hashname named).resolve_left remote).1 unlinked
    rw [goesOn]
    exact ⟨linking, seeLine_skipped own around count steady skips, steady⟩

end Link

/-! ## The job -/

section Job
variable {responder : IdentityRef} {start seek : Seek}

theorem seekLine_unread {line : String} (unread : ∀ hashname, namedBy line = some hashname →
      hashname ≠ sought seek ∧ some hashname = seek.mesh.table.localIdentity) :
    seekLine responder seek line = .ok (false, seek) := by
  unfold seekLine seeEntry
  unfold namedBy at unread
  dsimp only
  split
  · rename_i hashname csid address fields
    rw [fields] at unread
    obtain ⟨other, itself⟩ := unread hashname rfl
    have different : hashname ≠ seek.mesh.hashname seek.job.seekingIdentity := other
    rw [if_neg different, if_pos itself]
  · rfl

/-- The state of a job some lines after a moment: all it waits for is named by 64 digits. -/
structure Named (start seek : Seek) : Prop where
  kept : Kept start seek
  sound : Sound seek
  named : ∀ identity ∈ pool seek, IsHashname (seek.mesh.hashname identity)

theorem sought_named (sound : Sound start) (named : Named start seek) :
    sought seek = sought start :=
  sought_kept named.kept sound.seeking

theorem entryNames_string (name line : String) :
    entryNames name (.string line) = decide (namedBy line = some name) := by
  unfold entryNames namedBy
  dsimp only
  rcases componentsSeparatedByComma line with _ | ⟨hashname, _ | ⟨csid, address⟩⟩
  · rfl
  · rfl
  · simp

theorem candidate_string (localHashname : Option String) (name line : String) :
    candidate localHashname name (.string line) = (namedBy line).filter fun hashname =>
      ¬(hashname = name ∨ some hashname = localHashname) := by
  unfold candidate namedBy
  dsimp only
  rcases componentsSeparatedByComma line with _ | ⟨hashname, _ | ⟨csid, address⟩⟩
  · rfl
  · rfl
  · by_cases passed : hashname = name ∨ some hashname = localHashname
    · simp only [passed, ↓reduceIte, Option.filter_some, not_true, decide_false,
        Bool.false_eq_true]
    · simp only [passed, ↓reduceIte, Option.filter_some, not_false_eq_true, decide_true]

theorem seekTreats_iff (sound : Sound start) (named : Named start seek) (line : String) :
    SeekTreats responder seek line ↔ WellFormed line ∨ SeekSkips start line := by
  have same := sought_named sound named
  constructor
  · intro treats
    by_cases wellFormed : WellFormed line
    · exact Or.inl wellFormed
    · right
      intro hashname names
      obtain ⟨goesOn, adds⟩ := seeEntry_spec named.sound (treats.skips wellFormed)
      rw [entryNames_string, names, same] at goesOn
      have other : hashname ≠ sought start := by
        intro equal
        rw [equal] at goesOn
        simp at goesOn
      -- no candidate has come, so the line names the local identity
      obtain ⟨refs, nearby, added⟩ := adds.added
      have none : refs = [] := List.self_eq_append_right.mp nearby
      rw [none, candidate_string, names, same, named.kept.table, Option.filter_some] at added
      refine ⟨other, ?_⟩
      by_contra remote
      simp [other, remote] at added
  · rintro (wellFormed | skips)
    · refine ⟨?_, fun malformed => absurd wellFormed malformed⟩
      apply (seeEntry_ok_iff responder (.string line)).mpr
      unfold readable
      unfold WellFormed at wellFormed
      dsimp only
      split
      · rename_i fields
        rw [fields] at wellFormed
        exact wellFormed.elim
      · rfl
    · have unchanged : seekLine responder seek line = .ok (false, seek) := by
        apply seekLine_unread
        rw [same, named.kept.table]
        exact skips
      exact ⟨⟨_, unchanged⟩, fun _ => unchanged⟩

theorem seekLine_fine (sound : Sound start) (named : Named start seek) {line : String}
    (fine : WellFormed line ∨ SeekSkips start line) :
    ∃ after, seekLine responder seek line = .ok (endsSeek start line, after) ∧
      Named start after := by
  have same := sought_named sound named
  have treats := (@seekTreats_iff responder _ _ sound named line).mpr fine
  obtain ⟨⟨found, after⟩, computed⟩ := treats.safe
  obtain ⟨ends, adds⟩ := seeEntry_spec named.sound computed
  obtain ⟨refs, nearby, added⟩ := adds.added
  rw [same] at ends
  refine ⟨after, by rw [computed, ends, endsSeek], kept_trans named.kept adds.kept, adds.sound, ?_⟩
  have old : ∀ identity ∈ pool seek, IsHashname (after.mesh.hashname identity) := by
    intro identity member
    rw [adds.kept.names identity (SeekQueries.pool_made named.sound identity member)]
    exact named.named identity member
  have new : ∀ identity ∈ refs, IsHashname (after.mesh.hashname identity) := by
    intro identity member
    have name := List.mem_map_of_mem (f := after.mesh.hashname) member
    rw [added, candidate_string, Option.mem_toList, Option.filter_eq_some_iff] at name
    obtain ⟨names, passed⟩ := name
    rcases fine with wellFormed | skips
    · exact wellFormed_named wellFormed names
    · have local_ := (skips _ names).2
      rw [← named.kept.table] at local_
      exact absurd (Or.inr local_) (of_decide_eq_true passed)
  intro identity member
  rw [pool, nearby, adds.queries, List.append_assoc, List.mem_append, List.mem_append] at member
  rcases member with waiting | added | asked
  · exact old identity (List.mem_append_left _ waiting)
  · exact new identity added
  · exact old identity (List.mem_append_right _ asked)

theorem loop_seekLine (lines : List String) (seek : Seek) :
    loop (seekLine responder) seek lines =
      seeEntries responder seek (lines.map Json.string) := by
  induction lines generalizing seek with
  | nil => rfl
  | cons line rest ih =>
      rw [loop, List.map_cons, seeEntries, seekLine]
      cases seeEntry responder seek (.string line) with
      | error fault => rfl
      | ok result =>
          obtain ⟨found, seen⟩ := result
          cases found with
          | true => rfl
          | false => exact ih seen

theorem named_moves {after : Seek} (named : Named start seek) (moves : Moves seek after) :
    Named start after := by
  refine ⟨kept_trans named.kept moves.kept, moves.sound, fun identity member => ?_⟩
  have earlier := moves.pool.subset member
  rw [moves.kept.names identity (SeekQueries.pool_made named.sound identity earlier)]
  exact named.named identity earlier

theorem sortReads_named (sound : Sound start) (digits : IsHashname (sought start))
    (named : Named start seek) : SortReads seek := by
  intro _ identity member
  rw [sought_named sound named]
  exact distanceWithin_hashname digits (named.named identity (List.mem_append_left _ member))

/-- With all candidates named by 64 digits the sort raises nothing. -/
theorem resort_named (beyond : Data) (sound : Sound start) (digits : IsHashname (sought start))
    (named : Named start seek) :
    ∃ after, resort beyond stableSort seek = .ok after ∧ Named start after := by
  have comparable : Comparable (seekDistance beyond seek.mesh seek.job.seekingIdentity)
      seek.job.nearby := by
    refine Or.inr fun identity member => ⟨_, distanceFrom_hashname beyond ?_
      (named.named identity (List.mem_append_left _ member))⟩
    have same := sought_named sound named
    unfold sought at same
    rw [same]
    exact digits
  have sorts : ∃ after, resort beyond stableSort seek = .ok after := by
    unfold resort
    rw [(sortByDistance_ok_iff _).mpr ⟨comparable, rfl⟩]
    exact ⟨_, rfl⟩
  obtain ⟨after, sorted⟩ := sorts
  exact ⟨after, sorted, named_moves named (resort_moves beyond named.sound sorted)⟩

theorem same_but_completed (seek : Seek) :
    ∃ completed, seek = { seek with completed := completed } := ⟨seek.completed, rfl⟩

/-- What is left of a response whose lines were fine. -/
theorem handlePacket_fine (beyond : Data) (sound : Sound start)
    (digits : IsHashname (sought start)) (named : Named start start) {lines : List String}
    (fine : ∀ line ∈ reached (endsSeek start) lines, WellFormed line ∨ SeekSkips start line) :
    ∃ after rest, handlePacket beyond stableSort responder (seeing lines) start = .ok after ∧
      Named start rest ∧ ∃ completed, after = { rest with completed := completed } := by
  obtain ⟨found, seen, looped, namedSeen⟩ := loop_keeps
    (fun seek line kept fineLine => @seekLine_fine responder _ seek sound kept line fineLine)
    start lines named fine
  rw [loop_seekLine] at looped
  have clean : ¬((seeing lines).lookup "err").isSome = true := by
    simp [seeing, Dictionary.single, Dictionary.lookup, find]
  have read : sees (seeing lines) = .ok (lines.map Json.string) := by
    simp [sees, seeing]
  unfold handlePacket
  rw [if_neg clean, read, ok_bind, looped, ok_bind]
  cases found with
  | true =>
      simp only [↓reduceIte, pure_eq_ok]
      exact ⟨_, seen, rfl, namedSeen, _, rfl⟩
  | false =>
      obtain ⟨sorted, computed, namedSorted⟩ := resort_named beyond sound digits namedSeen
      simp only [Bool.false_eq_true, ↓reduceIte, computed, ok_bind, pure_eq_ok]
      split
      · have first := runSeek_moves namedSorted.sound
        have all := moves_trans first
          (runSeeks_moves first.sound 3 (runSeek sorted).job.runningSearches)
        exact ⟨_, _, rfl, named_moves namedSorted all, same_but_completed _⟩
      · exact ⟨sorted, sorted, rfl, namedSorted, same_but_completed sorted⟩

end Job

/-! ## Runs of lists -/

section Lists
variable {beyond : Data} {order : ByteOrder} {stack : SockaddrIn} {transportPort : Nat}
  {localHashname : String} {linking : Linking}

theorem ready_named (ready : Ready localHashname linking) {seek : Seek}
    (named : Named linking.toSeek seek) : Ready localHashname { linking with toSeek := seek } where
  around := by rw [named.kept.table]; exact ready.around
  count := by rw [named.kept.table]; exact ready.count
  sound := named.sound
  made := fun identity member => Nat.lt_of_lt_of_le (ready.made identity member) named.kept.newer
  sought := by rw [sought_named ready.sound named]; exact ready.sought
  named := named.named

theorem named_start (ready : Ready localHashname linking) :
    Named linking.toSeek linking.toSeek :=
  ⟨kept_refl _, ready.sound, ready.named⟩

theorem steady_now (ready : Ready localHashname linking) : Steady linking.toSeek linking :=
  ⟨kept_refl _, ready.sound, fun _ => rfl, ready.made, rfl⟩

theorem linkSurvives_iff (own : IsHashname localHashname) (ready : Ready localHashname linking)
    (responder : IdentityRef) (lines : List String) :
    LinkSurvives beyond order stack transportPort responder linking lines ↔
      Meets beyond localHashname linking (.link responder lines) :=
  @eachMet_iff _ _ _ (seeLine beyond order stack transportPort responder)
    (endsLoop beyond localHashname linking.toSeek) (Steady linking.toSeek)
    (LinkTreats beyond order stack transportPort responder)
    (fun line => WellFormed line ∨ LinkSkips localHashname linking.toSeek line)
    (fun _ line steady => linkTreats_iff own ready.around ready.count steady line)
    (fun _ _ steady fine => seeLine_fine own ready.around ready.count steady fine)
    linking lines (steady_now ready)

theorem seekSurvives_iff (ready : Ready localHashname linking) (responder : IdentityRef)
    (lines : List String) :
    SeekSurvives beyond responder linking.toSeek lines ↔
      Meets beyond localHashname linking (.seek responder lines) := by
  have each := @eachMet_iff _ _ _ (seekLine responder) (endsSeek linking.toSeek)
    (Named linking.toSeek) (SeekTreats responder)
    (fun line => WellFormed line ∨ SeekSkips linking.toSeek line)
    (fun _ line named => seekTreats_iff ready.sound named line)
    (fun _ _ named fine => seekLine_fine ready.sound named fine)
    linking.toSeek lines (named_start ready)
  constructor
  · exact fun survives => each.mp survives.each
  · intro meets
    obtain ⟨_, seen, looped, named⟩ := loop_keeps
      (fun seek line kept fine => @seekLine_fine responder _ seek ready.sound kept line fine)
      linking.toSeek lines (named_start ready) meets
    obtain ⟨after, _, computed, _⟩ := @handlePacket_fine responder _ beyond ready.sound
      ready.sought (named_start ready) lines meets
    refine ⟨each.mpr meets, fun other found => ?_, after, computed⟩
    cases looped.symm.trans found
    exact sortReads_named ready.sound ready.sought named

theorem take_ready (own : IsHashname localHashname) (ready : Ready localHashname linking)
    (received : Received) (meets : Meets beyond localHashname linking received) :
    Ready localHashname (take beyond order stack transportPort linking received) := by
  cases received with
  | link responder lines =>
      obtain ⟨ended, after, computed, steady⟩ := @loop_keeps _ _ _
        (seeLine beyond order stack transportPort responder)
        (endsLoop beyond localHashname linking.toSeek) (Steady linking.toSeek)
        (fun line => WellFormed line ∨ LinkSkips localHashname linking.toSeek line)
        (fun _ _ steady fine => seeLine_fine own ready.around ready.count steady fine)
        linking lines (steady_now ready) meets
      have same :
          take beyond order stack transportPort linking (.link responder lines) = after := by
        rw [take, seeLoop, computed]
      have named := named_start ready
      rw [same]
      exact
        { around := by rw [steady.kept.table]; exact ready.around
          count := by rw [steady.kept.table]; exact ready.count
          sound := steady.sound
          made := steady.made
          sought := by rw [sought_kept steady.kept ready.sound.seeking]; exact ready.sought
          named := by
            intro identity member
            rw [steady.pool] at member
            rw [steady.kept.names identity (SeekQueries.pool_made ready.sound identity member)]
            exact ready.named identity member }
  | seek responder lines =>
      obtain ⟨after, rest, computed, named, completed, same⟩ := @handlePacket_fine
        responder _ beyond ready.sound ready.sought (named_start ready) lines meets
      have taken : take beyond order stack transportPort linking (.seek responder lines) =
          { linking with toSeek := after } := by
        rw [take, computed]
      have kept := ready_named ready named
      rw [taken, same]
      exact ⟨kept.around, kept.count, sound_completed kept.sound completed, kept.made, kept.sought,
        kept.named⟩

/-- In a run of received lists each is survived exactly if, each time, all lines
the reader comes to are well formed or passed by for their hashnames. -/
theorem see_lists_survived_iff (own : IsHashname localHashname) (start : Linking)
    (ready : Ready localHashname start) (lists : List Received) :
    Along (take beyond order stack transportPort) (Survives beyond order stack transportPort)
        start lists ↔
      Along (take beyond order stack transportPort) (Meets beyond localHashname) start lists := by
  have same : ∀ linking received, Ready localHashname linking →
      (Survives beyond order stack transportPort linking received ↔
        Meets beyond localHashname linking received) := by
    intro linking received kept
    cases received with
    | link responder lines => exact linkSurvives_iff own kept responder lines
    | seek responder lines => exact seekSurvives_iff kept responder lines
  exact along_congr_while (fun linking received kept meets => take_ready own kept received meets)
    same start lists ready

end Lists

/-- A line that names nobody, and lines of two fields and of four. -/
def fairLists : List Received := [.link 0 ["", farLine], .seek 0 ["", remoteLine]]

theorem fair_lists_survived :
    Along (take [] .littleEndian ⟨0, 0, ⟨0, 0, 0, 0⟩⟩ 0)
      (Survives [] .littleEndian ⟨0, 0, ⟨0, 0, 0, 0⟩⟩ 0) ⟨remoteSeek, []⟩ fairLists := by
  have ready : Ready originHashname ⟨remoteSeek, []⟩ :=
    ⟨rfl, List.length_replicate, remoteSeek_sound, List.forall_mem_nil _, remoteHashname_is,
      List.forall_mem_nil _⟩
  have fine : ∀ line ∈ ["", farLine] ++ ["", remoteLine],
      WellFormed line ∨ namedBy line = none := by
    decide +kernel
  apply (see_lists_survived_iff originHashname_is ⟨remoteSeek, []⟩ ready fairLists).mpr
  refine ⟨fun line member => ?_, fun line member => ?_, trivial⟩
  · have listed := (reached_sublist ["", farLine]).subset member
    refine (fine line (List.mem_append_left _ listed)).imp_right fun unread hashname named => ?_
    cases unread.symm.trans named
  · have listed := (reached_sublist ["", remoteLine]).subset member
    refine (fine line (List.mem_append_right _ listed)).imp_right fun unread hashname named => ?_
    cases unread.symm.trans named

/-- Three fields, the first the sought hashname: there is no port to read. -/
theorem three_fields_raise :
    ¬Along (take [] .littleEndian ⟨0, 0, ⟨0, 0, 0, 0⟩⟩ 0)
      (Survives [] .littleEndian ⟨0, 0, ⟨0, 0, 0, 0⟩⟩ 0) ⟨remoteSeek, []⟩
      [.seek 0 [remoteHashname ++ ",2a,127.0.0.1"]] := by
  rintro ⟨survives, _⟩
  obtain ⟨after, computed⟩ := survives.handled
  have raised : (handlePacket [] stableSort 0 (seeing [remoteHashname ++ ",2a,127.0.0.1"])
      remoteSeek).toOption.isNone = true := by
    decide +kernel
  rw [computed] at raised
  cases raised

end Telehash.SeeSurvival
