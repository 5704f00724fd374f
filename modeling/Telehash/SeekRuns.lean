import Telehash.PendingSeek
import Telehash.Runs

/-!
The life of a PendingSeekJob: `seek:completion:` of THMeshBuckets.m starts it,
and each packet on the channel of one of its queries is handed to it. An `err`
never gets there: THChannel reports it to its delegate first, with a message the
job does not understand. Between the packets active paths come and go and other
identities are learned of.
-/

namespace Telehash.SeekRuns
open Association Foundation Channel Distance MeshBuckets PendingSeek Runs
open Identity (IdentityRef)

/-! ## What a packet says -/

/-- A line of `see` that names the sought hashname. -/
def entryNames (sought : String) : Json → Bool
  | .string seeString =>
      match componentsSeparatedByComma seeString with
      | hashname :: _ :: _ => hashname = sought
      | _ => false
  | _ => false

/-- The hashname a line of `see` adds to the candidates. -/
def candidate (localHashname : Option String) (sought : String) : Json → Option String
  | .string seeString =>
      match componentsSeparatedByComma seeString with
      | hashname :: _ :: _ =>
          if hashname = sought ∨ some hashname = localHashname then none else some hashname
      | _ => none
  | _ => none

def seeLines (packet : JsonDictionary) : List Json :=
  match packet.lookup "see" with
  | some (.array entries) => entries
  | _ => []

/-- The hashnames a packet adds, up to the line that names the sought one. -/
def addedNames (localHashname : Option String) (sought : String) (packet : JsonDictionary) :
    List String :=
  ((seeLines packet).takeWhile fun entry => ¬entryNames sought entry).filterMap
    (candidate localHashname sought)

def names (sought : String) (packet : JsonDictionary) : Bool :=
  (seeLines packet).any (entryNames sought)

/-! ## The job -/

/-- The identities a job has sent its query to, one for each channel. -/
def queried : IdentityRef × Request → Option IdentityRef
  | (identity, .seek _) => some identity
  | _ => none

def queries (seek : Seek) : List IdentityRef := seek.mesh.asked.filterMap queried

def sought (seek : Seek) : String := seek.mesh.hashname seek.job.seekingIdentity

/-- Identities as the program knows them: one for each cached hashname, and none
in the table or sought that is yet to be made. -/
structure World where
  mesh : Mesh
  identityCache : Dictionary String IdentityRef
  nextIdentity : IdentityRef
  hasTransport : Bool
  isBridged : IdentityRef → Bool
  toIdentity : IdentityRef
  cached : ∀ hashname identity, identityCache.lookup hashname = some identity →
    identity < nextIdentity ∧ mesh.hashname identity = hashname
  listed : ∀ identity ∈ mesh.table.buckets.flatten, identity < nextIdentity
  known : toIdentity < nextIdentity

/-- The enumeration of `nearby`, which each turn makes shorter. -/
def runEach : (turns idx : Nat) → Seek → Seek
  | 0, _, seek => seek
  | turns + 1, idx, seek =>
      if idx < seek.job.nearby.length then runEach turns (idx + 1) (runSeek seek) else seek

/-- A job with its first candidates. -/
def newSeek (world : World) (nearby : List IdentityRef) : Seek where
  mesh := { world.mesh with asked := [] }
  identityCache := world.identityCache
  nextIdentity := world.nextIdentity
  hasTransport := world.hasTransport
  job := ⟨world.toIdentity, nearby, 0, true⟩
  completed := []

-- A hashname has no character that is special in a pattern, so it matches itself alone.
def activeFilter (world : World) (identity : IdentityRef) : Bool :=
  world.mesh.hashname identity ≠ world.mesh.hashname world.toIdentity ∧
    world.isBridged identity = false ∧ (world.mesh.peers identity).linkChannel.isSome

section Source
variable (beyond : Data)

/-- `seek:completion:` with a completion. -/
def startSeek (world : World) : Except Fault Seek := do
  let around ← nearby beyond stableSort world.mesh world.toIdentity
  let candidates := around.filter (activeFilter world)
  let taken := candidates.take (min 3 candidates.length)
  return runEach taken.length 0 (newSeek world taken)

/-- `handlePacket:` of the channel of a query. -/
def receive (responder : IdentityRef) (packet : JsonDictionary) (seek : Seek) :
    Except Fault Seek :=
  if (packet.lookup "err").isSome then .error .unrecognizedSelector
  else handlePacket beyond stableSort responder packet seek

/-! ## Runs -/

structure Search where
  seek : Seek
  -- the queries that were answered, by number, and those whose channel has ended
  answered : List Nat
  ended : List Nat
  -- whether a response has named the sought hashname
  named : Bool
  crashed : Bool

inductive Event where
  | response (query : Nat) (packet : JsonDictionary)
  | pathChange (identity : IdentityRef) (hasActivePath : Bool)
  | discovered (hashname : String)

/-- Who answers, if there is still a channel for it. -/
def responder (search : Search) (query : Nat) : Option IdentityRef :=
  if search.crashed ∨ query ∈ search.ended then none else (queries search.seek)[query]?

def endsChannel (packet : JsonDictionary) : Bool :=
  match packet.lookup "end" with
  | some value => value.boolValue
  | none => false

def hear (search : Search) (query : Nat) (packet : JsonDictionary) : Search :=
  { search with
    answered := query :: search.answered
    named := search.named || names (sought search.seek) packet
    ended := if endsChannel packet then query :: search.ended else search.ended }

def step (search : Search) : Event → Search
  | .response query packet =>
      match responder search query with
      | none => search
      | some identity =>
          let heard := hear search query packet
          match receive beyond identity packet search.seek with
          | .ok seek => { heard with seek := seek }
          | .error _ => { heard with crashed := true }
  | .pathChange identity hasActivePath =>
      { search with
        seek := { search.seek with
          mesh := search.seek.mesh.updatePeer identity fun peer =>
            { peer with hasActivePath := hasActivePath } } }
  | .discovered hashname =>
      { search with seek := (identityFromHashname search.seek hashname).2 }

def started (seek : Seek) : Search := ⟨seek, [], [], false, false⟩

end Source

/-! ## What the job leaves as it is -/

/-- The identities made so far keep their hashnames, and the search stays the same. -/
structure Kept (before after : Seek) : Prop where
  seeking : after.job.seekingIdentity = before.job.seekingIdentity
  hasCompletion : after.job.hasCompletion = before.job.hasCompletion
  hasTransport : after.hasTransport = before.hasTransport
  table : after.mesh.table = before.mesh.table
  completed : after.completed = before.completed
  newer : before.nextIdentity ≤ after.nextIdentity
  names : ∀ identity < before.nextIdentity,
    after.mesh.hashname identity = before.mesh.hashname identity

theorem kept_refl (seek : Seek) : Kept seek seek :=
  ⟨rfl, rfl, rfl, rfl, rfl, Nat.le_refl _, fun _ _ => rfl⟩

theorem kept_trans {one two three : Seek} (first : Kept one two) (second : Kept two three) :
    Kept one three where
  seeking := second.seeking.trans first.seeking
  hasCompletion := second.hasCompletion.trans first.hasCompletion
  hasTransport := second.hasTransport.trans first.hasTransport
  table := second.table.trans first.table
  completed := second.completed.trans first.completed
  newer := Nat.le_trans first.newer second.newer
  names := fun identity old =>
    (second.names identity (Nat.lt_of_lt_of_le old first.newer)).trans (first.names identity old)

/-- Only identities that were made are cached, sought, waiting or asked. -/
structure Sound (seek : Seek) : Prop where
  cached : ∀ hashname identity, seek.identityCache.lookup hashname = some identity →
    identity < seek.nextIdentity ∧ seek.mesh.hashname identity = hashname
  seeking : seek.job.seekingIdentity < seek.nextIdentity
  waiting : ∀ identity ∈ seek.job.nearby, identity < seek.nextIdentity
  asked : ∀ identity ∈ queries seek, identity < seek.nextIdentity

theorem sought_kept {before after : Seek} (kept : Kept before after)
    (made : before.job.seekingIdentity < before.nextIdentity) : sought after = sought before := by
  unfold sought
  rw [kept.seeking, kept.names _ made]

theorem queries_ask (seek : Seek) (identity : IdentityRef) (request : Request) :
    queries (seek.ask identity request) =
      queries seek ++ (queried (identity, request)).toList := by
  unfold queries Seek.ask Mesh.ask
  rw [List.filterMap_append]
  cases found : queried (identity, request) <;> simp [found]

theorem sound_completed {seek : Seek} (sound : Sound seek) (completed : List Bool) :
    Sound { seek with completed := completed } :=
  ⟨sound.cached, sound.seeking, sound.waiting, sound.asked⟩

section Operations
variable {seek after : Seek}

theorem ask_kept (seek : Seek) (identity : IdentityRef) (request : Request) :
    Kept seek (seek.ask identity request) :=
  ⟨rfl, rfl, rfl, rfl, rfl, Nat.le_refl _, fun _ _ => rfl⟩

theorem setNearby_kept (seek : Seek) (nearby : List IdentityRef) :
    Kept seek (seek.setNearby nearby) :=
  ⟨rfl, rfl, rfl, rfl, rfl, Nat.le_refl _, fun _ _ => rfl⟩

/-- What is asked of an identity besides a query. -/
theorem ask_sound (sound : Sound seek) (identity : IdentityRef) {request : Request}
    (other : queried (identity, request) = none) : Sound (seek.ask identity request) := by
  have same : queries (seek.ask identity request) = queries seek := by
    rw [queries_ask, other]
    exact List.append_nil _
  exact ⟨sound.cached, sound.seeking, sound.waiting, same ▸ sound.asked⟩

/-- An identity for a hashname, a new one if none is cached. -/
theorem identityFromHashname_spec (sound : Sound seek) (hashname : String) :
    let found := identityFromHashname seek hashname
    Kept seek found.2 ∧ Sound found.2 ∧ found.1 < found.2.nextIdentity ∧
      found.2.mesh.hashname found.1 = hashname ∧ queries found.2 = queries seek ∧
      found.2.job = seek.job := by
  intro found
  unfold found identityFromHashname
  cases lookup : seek.identityCache.lookup hashname with
  | some identity =>
      obtain ⟨made, named⟩ := sound.cached hashname identity lookup
      exact ⟨kept_refl seek, sound, made, named, rfl, rfl⟩
  | none =>
      have old : ∀ identity < seek.nextIdentity,
          (seek.mesh.updatePeer seek.nextIdentity fun _ => withHashname hashname).hashname
            identity = seek.mesh.hashname identity := by
        intro identity made
        simp [Mesh.hashname, Mesh.updatePeer, Nat.ne_of_lt made]
      have new : (seek.mesh.updatePeer seek.nextIdentity fun _ =>
          withHashname hashname).hashname seek.nextIdentity = hashname := by
        simp [Mesh.hashname, Mesh.updatePeer, withHashname]
      refine ⟨⟨rfl, rfl, rfl, rfl, rfl, Nat.le_succ _, old⟩, ⟨?_, ?_, ?_, ?_⟩,
        Nat.lt_succ_self _, new, rfl, rfl⟩
      · intro other identity held
        rw [lookup_insert] at held
        by_cases same : other = hashname
        · rw [if_pos same] at held
          cases held
          exact ⟨Nat.lt_succ_self _, new.trans same.symm⟩
        · rw [if_neg same] at held
          obtain ⟨made, named⟩ := sound.cached other identity held
          exact ⟨Nat.lt_succ_of_lt made, (old identity made).trans named⟩
      · exact Nat.lt_succ_of_lt sound.seeking
      · exact fun identity member => Nat.lt_succ_of_lt (sound.waiting identity member)
      · exact fun identity member => Nat.lt_succ_of_lt (sound.asked identity member)

/-! ## Queries -/

def pool (seek : Seek) : List IdentityRef := seek.job.nearby ++ queries seek

/-- Candidates become queries or go; none comes. -/
structure Moves (before after : Seek) : Prop where
  kept : Kept before after
  sound : Sound after
  pool : (pool after).Subperm (pool before)

theorem moves_refl (sound : Sound seek) : Moves seek seek :=
  ⟨kept_refl seek, sound, List.Subperm.refl _⟩

theorem moves_trans {middle : Seek} (first : Moves seek middle) (second : Moves middle after) :
    Moves seek after :=
  ⟨kept_trans first.kept second.kept, second.sound, second.pool.trans first.pool⟩

theorem runSeek_moves (sound : Sound seek) : Moves seek (runSeek seek) := by
  unfold runSeek
  split
  · exact moves_refl sound
  · rename_i identity rest candidates
    have made := sound.waiting identity (candidates ▸ List.mem_cons_self)
    have waiting : ∀ other ∈ rest, other < seek.nextIdentity := fun other member =>
      sound.waiting other (candidates ▸ List.mem_cons_of_mem _ member)
    dsimp only
    split
    · -- the candidate becomes a query
      have asked : ∀ other ∈ queries seek ++ [identity], other < seek.nextIdentity :=
        List.forall_mem_append.mpr ⟨sound.asked, List.forall_mem_singleton.mpr made⟩
      refine ⟨⟨rfl, rfl, rfl, rfl, rfl, Nat.le_refl _, fun _ _ => rfl⟩,
        ⟨sound.cached, sound.seeking, waiting, ?_⟩, ?_⟩
      · rw [queries_ask]
        exact asked
      · rw [pool, pool, queries_ask, candidates, ← List.append_assoc]
        exact (List.perm_append_singleton identity _).subperm
    · -- without an active path it is gone
      refine ⟨⟨rfl, rfl, rfl, rfl, rfl, Nat.le_refl _, fun _ _ => rfl⟩,
        ⟨sound.cached, sound.seeking, waiting, sound.asked⟩, ?_⟩
      unfold pool
      rw [candidates]
      exact (List.sublist_cons_self _ _).subperm

theorem runSeeks_moves (sound : Sound seek) (turns i : Nat) :
    Moves seek (runSeeks turns i seek) := by
  induction turns generalizing seek i with
  | zero => exact moves_refl sound
  | succ turns ih =>
      rw [runSeeks]
      split
      · have first := runSeek_moves sound
        exact moves_trans first (ih first.sound (i + 1))
      · exact moves_refl sound

theorem runEach_moves (sound : Sound seek) (turns idx : Nat) :
    Moves seek (runEach turns idx seek) := by
  induction turns generalizing seek idx with
  | zero => exact moves_refl sound
  | succ turns ih =>
      rw [runEach]
      split
      · have first := runSeek_moves sound
        exact moves_trans first (ih first.sound (idx + 1))
      · exact moves_refl sound

theorem resort_moves (beyond : Data) (sound : Sound seek)
    (sorted : resort beyond stableSort seek = .ok after) : Moves seek after := by
  obtain ⟨nearby, result, same⟩ := (bind_ok_iff _ _ _).mp sorted
  have perm : nearby.Perm seek.job.nearby := by
    rw [((sortByDistance_ok_iff nearby).mp result).2]
    exact List.mergeSort_perm _ _
  rw [← Except.ok.inj same]
  refine ⟨setNearby_kept seek nearby, ⟨sound.cached, sound.seeking, ?_, sound.asked⟩, ?_⟩
  · exact fun identity member => sound.waiting identity (perm.mem_iff.mp member)
  · exact (perm.append_right (queries seek)).subperm

/-! ## Responses -/

/-- Candidates of these names have come, and no query. -/
structure Adds (before after : Seek) (names : List String) : Prop where
  kept : Kept before after
  sound : Sound after
  queries : queries after = queries before
  added : ∃ refs, after.job.nearby = before.job.nearby ++ refs ∧
    refs.map after.mesh.hashname = names

theorem adds_none (kept : Kept seek after) (sound : Sound after)
    (asked : queries after = queries seek) (same : after.job.nearby = seek.job.nearby) :
    Adds seek after [] :=
  ⟨kept, sound, asked, [], by rw [same, List.append_nil], rfl⟩

theorem adds_trans {middle : Seek} {names later : List String}
    (first : Adds seek middle names) (second : Adds middle after later) :
    Adds seek after (names ++ later) := by
  obtain ⟨refs, nearby, named⟩ := first.added
  obtain ⟨others, more, alsoNamed⟩ := second.added
  refine ⟨kept_trans first.kept second.kept, second.sound, second.queries.trans first.queries,
    refs ++ others, by rw [more, nearby, List.append_assoc], ?_⟩
  rw [List.map_append, alsoNamed, ← named]
  congr 1
  apply List.map_congr_left
  intro identity member
  apply second.kept.names
  exact first.sound.waiting identity (by rw [nearby]; exact List.mem_append_right _ member)

/-- The requests a response makes of an identity it names. -/
theorem ask_adds (sound : Sound seek) (identity : IdentityRef) (request : Request)
    (other : queried (identity, request) = none) : Adds seek (seek.ask identity request) [] := by
  refine adds_none (ask_kept seek identity request) (ask_sound sound identity other) ?_ rfl
  rw [queries_ask, other]
  exact List.append_nil _

/-- A line that names the sought hashname adds nothing. -/
theorem seeEntry_sought {responder : IdentityRef} {seeString csid : String}
    {address : List String} {found : Bool} (sound : Sound seek)
    (fields : componentsSeparatedByComma seeString = sought seek :: csid :: address)
    (seen : seeEntry responder seek (.string seeString) = .ok (found, after)) :
    found = true ∧ Adds seek after [] := by
  have via := ask_adds sound seek.job.seekingIdentity (.addVia responder) rfl
  have suggested := adds_trans via
    (ask_adds via.sound seek.job.seekingIdentity (.suggestCipherSet csid) rfl)
  unfold seeEntry at seen
  simp only [fields, sought, ↓reduceIte] at seen
  split at seen
  · cases seen
    exact ⟨rfl, suggested⟩
  · split at seen
    · cases seen
      exact ⟨rfl, suggested⟩
    · split at seen
      · cases seen
      · cases seen
        exact ⟨rfl, adds_trans suggested (ask_adds suggested.sound _ _ rfl)⟩

/-- A line that names another identity adds it, unless it is the local one. -/
theorem seeEntry_other {responder : IdentityRef} {seeString hashname csid : String}
    {address : List String} {found : Bool} (sound : Sound seek)
    (fields : componentsSeparatedByComma seeString = hashname :: csid :: address)
    (other : hashname ≠ sought seek)
    (seen : seeEntry responder seek (.string seeString) = .ok (found, after)) :
    found = false ∧ Adds seek after
      (if some hashname = seek.mesh.table.localIdentity then [] else [hashname]) := by
  have different : hashname ≠ seek.mesh.hashname seek.job.seekingIdentity := other
  unfold seeEntry at seen
  simp only [fields, different, ↓reduceIte] at seen
  split at seen
  · rename_i itself
    cases seen
    rw [if_pos itself]
    exact ⟨rfl, adds_none (kept_refl seek) sound rfl rfl⟩
  · rename_i remote
    obtain ⟨kept, known, made, named, asked, job⟩ := identityFromHashname_spec sound hashname
    have via := ask_adds known (identityFromHashname seek hashname).1
      (.addVia responder) rfl
    have near := adds_trans via (ask_adds via.sound (identityFromHashname seek hashname).1
      (.suggestCipherSet csid) rfl)
    cases seen
    rw [if_neg remote]
    refine ⟨rfl, kept_trans kept (kept_trans near.kept (setNearby_kept _ _)),
      ⟨near.sound.cached, near.sound.seeking, ?_, near.sound.asked⟩,
      near.queries.trans asked, [(identityFromHashname seek hashname).1], ?_, ?_⟩
    · exact List.forall_mem_append.mpr
        ⟨near.sound.waiting, List.forall_mem_singleton.mpr made⟩
    · exact congrArg (fun job => job.nearby ++ [(identityFromHashname seek hashname).1]) job
    · exact congrArg (fun name => [name]) named

theorem seeEntry_spec {responder : IdentityRef} {entry : Json} {found : Bool}
    (sound : Sound seek) (seen : seeEntry responder seek entry = .ok (found, after)) :
    found = entryNames (sought seek) entry ∧
      Adds seek after (candidate seek.mesh.table.localIdentity (sought seek) entry).toList := by
  cases entry with
  | string seeString =>
      match fields : componentsSeparatedByComma seeString with
      | [] | [_] =>
          simp only [seeEntry, fields] at seen
          cases seen
          simp only [entryNames, candidate, fields, true_and]
          exact adds_none (kept_refl seek) sound rfl rfl
      | hashname :: csid :: address =>
          by_cases same : hashname = sought seek
          · rw [same] at fields
            simpa [entryNames, candidate, fields] using seeEntry_sought sound fields seen
          · obtain ⟨rfl, adds⟩ := seeEntry_other sound fields same seen
            simp only [entryNames, candidate, fields, same, false_or, decide_false, true_and]
            split at adds <;> rename_i itself
            · rwa [if_pos itself]
            · rwa [if_neg itself]
  | null | bool | number | array | object => cases seen

theorem candidate_named {localHashname : Option String} {name : String} {entry : Json}
    (names : entryNames name entry = true) : candidate localHashname name entry = none := by
  cases entry with
  | string seeString =>
      simp only [entryNames, candidate] at names ⊢
      split at names
      · rename_i fields
        simp only [of_decide_eq_true names, true_or, ↓reduceIte]
      · cases names
  | null | bool | number | array | object => rfl

theorem filterMap_first {α β : Type} (read : α → Option β) (item : α) (rest : List α) :
    (item :: rest).filterMap read = (read item).toList ++ rest.filterMap read := by
  cases result : read item <;> simp [result]

/-- Which lines are read, and what reading them adds. -/
theorem seeEntries_spec {responder : IdentityRef} {entries : List Json} {found : Bool}
    (sound : Sound seek) (seen : seeEntries responder seek entries = .ok (found, after)) :
    found = entries.any (entryNames (sought seek)) ∧
      Adds seek after ((entries.takeWhile fun entry => ¬entryNames (sought seek) entry).filterMap
        (candidate seek.mesh.table.localIdentity (sought seek))) := by
  induction entries generalizing seek with
  | nil =>
      cases seen
      exact ⟨rfl, adds_none (kept_refl _) sound rfl rfl⟩
  | cons entry rest ih =>
      obtain ⟨⟨hit, middle⟩, first, later⟩ := (bind_ok_iff _ _ _).mp seen
      obtain ⟨rfl, adds⟩ := seeEntry_spec sound first
      -- the line that names the sought hashname is the last one read
      by_cases names : entryNames (sought seek) entry = true
      · simp only [names, ↓reduceIte, pure_eq_ok] at later
        cases later
        rw [candidate_named names] at adds
        simp only [List.any_cons, names, Bool.true_or, List.takeWhile_cons, not_true,
          decide_false, Bool.false_eq_true, ↓reduceIte, List.filterMap_nil, true_and]
        exact adds
      · simp only [names, Bool.false_eq_true, ↓reduceIte] at later
        obtain ⟨same, others⟩ := ih adds.sound later
        rw [sought_kept adds.kept sound.seeking, adds.kept.table] at others
        rw [sought_kept adds.kept sound.seeking] at same
        refine ⟨by rw [same, List.any_cons, Bool.not_eq_true _ |>.mp names, Bool.false_or], ?_⟩
        rw [List.takeWhile_cons_of_pos (by simpa using names), filterMap_first]
        exact adds_trans adds others

theorem sees_lines {packet : JsonDictionary} {entries : List Json}
    (read : sees packet = .ok entries) : entries = seeLines packet := by
  unfold sees at read
  unfold seeLines
  split at read <;> rename_i held <;> simp only [held]
  · exact (Except.ok.inj read).symm
  · exact (Except.ok.inj read).symm
  · cases read

/-- The completion is called by a response that names the sought hashname, and
the queries go on after one that does not. -/
theorem receive_spec (beyond : Data) {responder : IdentityRef} {packet : JsonDictionary}
    (sound : Sound seek) (received : receive beyond responder packet seek = .ok after) :
    ∃ seen, Adds seek seen (addedNames seek.mesh.table.localIdentity (sought seek) packet) ∧
      if names (sought seek) packet = true then
        after = { seen with
          completed := if seen.job.hasCompletion then seen.completed ++ [true] else seen.completed }
      else Moves seen after := by
  unfold receive handlePacket at received
  split at received
  · cases received
  · obtain ⟨entries, read, later⟩ := (bind_ok_iff _ _ _).mp received
    obtain ⟨⟨found, seen⟩, heard, rest⟩ := (bind_ok_iff _ _ _).mp later
    obtain ⟨hit, adds⟩ := seeEntries_spec sound heard
    rw [sees_lines read] at hit adds
    refine ⟨seen, adds, ?_⟩
    have named : names (sought seek) packet = found := hit.symm
    rw [named]
    cases found with
    | true => exact (Except.ok.inj rest).symm
    | false =>
        simp only [Bool.false_eq_true, ↓reduceIte] at rest ⊢
        obtain ⟨sorted, resorted, run⟩ := (bind_ok_iff _ _ _).mp rest
        have ordered := resort_moves beyond adds.sound resorted
        split at run
        · have first := moves_trans ordered (runSeek_moves ordered.sound)
          rw [← Except.ok.inj run]
          exact moves_trans first (runSeeks_moves first.sound 3 _)
        · rw [← Except.ok.inj run]
          exact ordered

end Operations

/-! ## Steps -/

section Steps
variable (beyond : Data) {search : Search}

/-- Nothing comes of a packet on a channel that is gone; any other one is heard,
and either taken in or the end of the program. -/
theorem step_response (search : Search) (query : Nat) (packet : JsonDictionary) :
    (responder search query = none ∧ step beyond search (.response query packet) = search) ∨
      ∃ identity, responder search query = some identity ∧
        ((∃ after, receive beyond identity packet search.seek = .ok after ∧
          step beyond search (.response query packet) =
            { hear search query packet with seek := after }) ∨
        (∃ fault, receive beyond identity packet search.seek = .error fault ∧
          step beyond search (.response query packet) =
            { hear search query packet with crashed := true })) := by
  cases answers : responder search query with
  | none => exact Or.inl ⟨rfl, by simp only [step, answers]⟩
  | some identity =>
      refine Or.inr ⟨identity, rfl, ?_⟩
      cases received : receive beyond identity packet search.seek with
      | ok after => exact Or.inl ⟨after, rfl, by simp only [step, answers, received]⟩
      | error fault => exact Or.inr ⟨fault, rfl, by simp only [step, answers, received]⟩

theorem hashname_pathChange (mesh : Mesh) (identity other : IdentityRef) (hasActivePath : Bool) :
    (mesh.updatePeer identity fun peer => { peer with hasActivePath := hasActivePath }).hashname
      other = mesh.hashname other := by
  unfold Mesh.hashname Mesh.updatePeer
  by_cases same : other = identity <;> simp [same]

/-- A change of paths leaves everything else. -/
theorem pathChange_moves (sound : Sound search.seek) (identity : IdentityRef)
    (hasActivePath : Bool) :
    Moves search.seek (step beyond search (.pathChange identity hasActivePath)).seek := by
  have same := fun other => hashname_pathChange search.seek.mesh identity other hasActivePath
  refine ⟨⟨rfl, rfl, rfl, rfl, rfl, Nat.le_refl _, fun other _ => same other⟩,
    ⟨?_, sound.seeking, sound.waiting, sound.asked⟩, List.Subperm.refl _⟩
  intro hashname other held
  obtain ⟨made, named⟩ := sound.cached hashname other held
  exact ⟨made, (same other).trans named⟩

theorem discovered_moves (sound : Sound search.seek) (hashname : String) :
    Moves search.seek (step beyond search (.discovered hashname)).seek := by
  obtain ⟨kept, known, _, _, asked, job⟩ := identityFromHashname_spec sound hashname
  refine ⟨kept, known, ?_⟩
  have same : pool (identityFromHashname search.seek hashname).2 = pool search.seek := by
    rw [pool, pool, asked, job]
  exact same ▸ List.Subperm.refl _

theorem step_sound (sound : Sound search.seek) (event : Event) :
    Sound (step beyond search event).seek := by
  cases event with
  | response query packet =>
      rcases step_response beyond search query packet with
        ⟨_, same⟩ | ⟨identity, _, ⟨after, received, same⟩ | ⟨_, _, same⟩⟩
      · rwa [same]
      · rw [same]
        obtain ⟨seen, adds, outcome⟩ := receive_spec beyond sound received
        split at outcome
        · rw [outcome]
          exact sound_completed adds.sound _
        · exact outcome.sound
      · rwa [same]
  | pathChange identity hasActivePath =>
      exact (pathChange_moves beyond sound identity hasActivePath).sound
  | discovered hashname => exact (discovered_moves beyond sound hashname).sound

end Steps

/-! ## The start -/

section Start
variable {table : THMeshBuckets} {mesh : Mesh} {target : IdentityRef}

def Within (table : THMeshBuckets) (entries : List IdentityRef) : Prop :=
  ∀ identity ∈ entries, identity ∈ table.buckets.flatten

theorem objectAtIndex_within {index : Int} {bucket : List IdentityRef}
    (found : table.objectAtIndex index = .ok bucket) : Within table bucket := by
  unfold THMeshBuckets.objectAtIndex at found
  split at found
  · cases found
  · split at found
    · cases found
    · rename_i held
      rw [← Except.ok.inj found]
      exact fun identity member => Buckets.mem_flatten_of_found held member

theorem fillFrom_within {bucket : List IdentityRef} {filling : Filling}
    (inside : Within table bucket) (within : Within table filling.entries) :
    Within table (fillFrom bucket filling).entries := by
  unfold fillFrom
  split
  · exact within
  · exact List.forall_mem_append.mpr
      ⟨within, fun identity member => inside identity (List.mem_of_mem_take member)⟩

theorem fillDown_within {index : Nat} {filling after : Filling}
    (filled : fillDown table index filling = .ok after) (within : Within table filling.entries) :
    Within table after.entries := by
  induction index generalizing filling with
  | zero =>
      cases filled
      exact within
  | succ index ih =>
      rw [fillDown] at filled
      split at filled
      · obtain ⟨bucket, found, later⟩ := (bind_ok_iff _ _ _).mp filled
        exact ih later (fillFrom_within (objectAtIndex_within found) within)
      · cases filled
        exact within

theorem fillUp_within {turns index : Nat} {filling after : Filling}
    (filled : fillUp table turns index filling = .ok after)
    (within : Within table filling.entries) : Within table after.entries := by
  induction turns generalizing index filling with
  | zero =>
      cases filled
      exact within
  | succ turns ih =>
      obtain ⟨bucket, found, later⟩ := (bind_ok_iff _ _ _).mp filled
      exact ih later (fillFrom_within (objectAtIndex_within found) within)

/-- `nearby:` returns identities of the table. -/
theorem nearby_within {beyond : Data} {entries : List IdentityRef}
    (found : nearby beyond stableSort mesh target = .ok entries) : Within mesh.table entries := by
  obtain ⟨filling, filled, same⟩ := (bind_ok_iff _ _ _).mp found
  obtain ⟨index, _, located⟩ := (bind_ok_iff _ _ _).mp filled
  obtain ⟨closest, own, rest⟩ := (bind_ok_iff _ _ _).mp located
  obtain ⟨lower, down, up⟩ := (bind_ok_iff _ _ _).mp rest
  obtain ⟨_, _, bucketed⟩ := (bind_ok_iff _ _ _).mp own
  obtain ⟨bucket, held, sorted⟩ := (bind_ok_iff _ _ _).mp bucketed
  obtain ⟨results, result, taken⟩ := (bind_ok_iff _ _ _).mp sorted
  have inside : Within mesh.table results := by
    rw [((sortByDistance_ok_iff results).mp result).2]
    exact fun identity member =>
      objectAtIndex_within held identity ((List.mergeSort_perm _ _).mem_iff.mp member)
  have start : Within mesh.table closest := by
    rw [← Except.ok.inj taken]
    exact fun identity member => inside identity (List.mem_of_mem_take member)
  rw [← Except.ok.inj same]
  exact fillUp_within up (fillDown_within down start)

/-- A job starts from some of the identities around the sought one. -/
theorem startSeek_spec {beyond : Data} {world : World} {seek : Seek}
    (begun : startSeek beyond world = .ok seek) :
    ∃ around taken, nearby beyond stableSort world.mesh world.toIdentity = .ok around ∧
      taken.Sublist around ∧ Sound (newSeek world taken) ∧ Moves (newSeek world taken) seek := by
  obtain ⟨around, found, started⟩ := (bind_ok_iff _ _ _).mp begun
  let candidates := around.filter (activeFilter world)
  let taken := candidates.take (min 3 candidates.length)
  have some_ : taken.Sublist around := (List.take_sublist _ _).trans List.filter_sublist
  have sound : Sound (newSeek world taken) :=
    ⟨world.cached, world.known,
      fun identity member =>
        world.listed identity (nearby_within found identity (some_.mem member)),
      List.forall_mem_nil _⟩
  rw [← Except.ok.inj started]
  exact ⟨around, taken, found, some_, sound, runEach_moves sound taken.length 0⟩

/-! ## A world with one linked neighbour -/

def linkedPeer (hashname : String) : Peer :=
  { withHashname hashname with
    linkChannel := some ⟨0, .reliable, .opened, 0, 0⟩
    hasActivePath := true }

def oneNeighbour : World where
  mesh :=
    { table := { THMeshBuckets.init (some originHashname) with
        buckets := (List.replicate 256 []).set 241 [1] }
      peers := fun identity =>
        if identity = 1 then linkedPeer remoteHashname else withHashname farHashname
      asked := [] }
  identityCache := .single remoteHashname 1
  nextIdentity := 3
  hasTransport := true
  isBridged := fun _ => false
  toIdentity := 2
  cached := by
    intro hashname identity held
    obtain ⟨rfl, rfl⟩ := Prod.mk.inj (List.mem_singleton.mp ((lookup_some_iff _ _ _).mp held))
    exact ⟨by decide, rfl⟩
  listed := by decide +kernel
  known := by decide

/-- The job for the far identity, with its query to the neighbour sent. -/
def oneQuery : Seek := runEach 1 0 (newSeek oneNeighbour [1])

theorem nearby_oneNeighbour :
    nearby [] stableSort oneNeighbour.mesh oneNeighbour.toIdentity = .ok [1] := by
  decide +kernel

theorem startSeek_oneNeighbour : startSeek [] oneNeighbour = .ok oneQuery := by
  have kept : [1].filter (activeFilter oneNeighbour) = [1] := by decide +kernel
  rw [startSeek, nearby_oneNeighbour, ok_bind, kept]
  rfl

def seeing (lines : List String) : JsonDictionary := .single "see" (.array (lines.map Json.string))

end Start

end Telehash.SeekRuns
