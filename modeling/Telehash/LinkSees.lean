import Telehash.EntryLoop
import Telehash.RoutingTable
import Telehash.SeekRuns
import Telehash.SeeStrings

/-!
The `see` lines of a link packet, as `channel:handlePacket:` of THMeshBuckets.m
reads them. Whether a line is passed by, opened or the last one is told by its
hashname: no line changes the buckets or which identities have an active path or
a link channel, and neither does `openLine:`, which makes lines, relays and jobs.
-/

namespace Telehash.LinkSees
open Association Foundation Distance LogDistance MeshBuckets Placement PendingSeek SeekRuns
open SeeStrings EntryLoop
open Identity (IdentityRef)

/-! ## The handler -/

/-- The mesh with a seek of its own, and the identities `openLine:` was called for. -/
structure Linking extends Seek where
  opened : List IdentityRef

section Source
variable (beyond : Data) (order : ByteOrder) (stack : SockaddrIn) (transportPort : Nat)
  (responder : IdentityRef)

/-- The path of a line of four fields is added; `addPath:` raises if it is nil. -/
def seePath (identity : IdentityRef) (address : List String) (seek : Seek) : Except Fault Seek :=
  match address with
  | [ip, port] =>
      match initWithTransport order stack transportPort ip
          (unsignedArgument (integerValue port)) with
      | none => .error .nilArgument
      | some _ => .ok (seek.ask identity (.addPath ip port))
  | _ => .ok seek

/-- The body of the loop, and whether it breaks. -/
def seeLine (linking : Linking) (line : String) : Except Fault (Bool × Linking) :=
  match componentsSeparatedByComma line with
  | hashname :: csid :: address =>
      if some hashname = linking.mesh.table.localIdentity then .ok (false, linking)
      else do
        let (seeIdentity, seek) := identityFromHashname linking.toSeek hashname
        let bucketIndex ← localDistance beyond seek.mesh seeIdentity
        let bucket ← seek.mesh.table.objectAtIndex bucketIndex
        let peer := seek.mesh.peers seeIdentity
        if peer.hasActivePath || peer.linkChannel.isSome then
          return (false, { linking with toSeek := seek })
        let suggested := seek.ask seeIdentity (.suggestCipherSet csid)
        if maxLinks ≤ seek.mesh.table.linkTotal ∨ bucketSize ≤ bucket.length then
          return (true, { linking with toSeek := suggested })
        let pathed ← seePath order stack transportPort seeIdentity address
          (suggested.ask seeIdentity (.addVia responder))
        return (false, { toSeek := pathed, opened := linking.opened ++ [seeIdentity] })
  | _ => .ok (false, linking)

def seeLoop : Linking → List String → Except Fault (Bool × Linking) :=
  loop (seeLine beyond order stack transportPort responder)

end Source

def openedNames (linking : Linking) : List String := linking.opened.map linking.mesh.hashname

/-! ## What a hashname tells -/

section Hashnames
variable (beyond : Data) (localHashname : String) (seek : Seek)

/-- `hashname,csid` or `hashname,csid,ip,port`, with 64 digits and a port that is not 0. -/
def WellFormed (line : String) : Prop :=
  match componentsSeparatedByComma line with
  | [hashname, _] => IsHashname hashname
  | [hashname, _, _, port] => IsHashname hashname ∧ integerValue port ≠ 0
  | _ => False

instance (line : String) : Decidable (WellFormed line) := by
  unfold WellFormed; split <;> infer_instance

def namedBy (line : String) : Option String :=
  match componentsSeparatedByComma line with
  | hashname :: _ :: _ => some hashname
  | _ => none

/-- An identity was made for the hashname and has an active path or a link channel. -/
def linkedTo (hashname : String) : Bool :=
  match seek.identityCache.lookup hashname with
  | none => false
  | some identity =>
      (seek.mesh.peers identity).hasActivePath || (seek.mesh.peers identity).linkChannel.isSome

/-- The hashname of a line that is not passed by. -/
def followed (line : String) : Option String :=
  (namedBy line).filter fun hashname =>
    some hashname ≠ seek.mesh.table.localIdentity ∧ ¬linkedTo seek hashname

def hasRoom (hashname : String) : Bool :=
  seek.mesh.table.linkTotal < maxLinks ∧
    (seek.mesh.table.buckets.getD (home beyond localHashname hashname) []).length < bucketSize

/-- A followed line whose bucket is full ends the loop. -/
def endsLoop (line : String) : Bool :=
  ((followed seek line).filter fun hashname => ¬hasRoom beyond localHashname seek hashname).isSome

/-- The hashname a line has a line opened to, if the loop comes to it. -/
def opensTo (line : String) : List String :=
  ((followed seek line).filter fun hashname => hasRoom beyond localHashname seek hashname).toList

end Hashnames

section Lookups
variable {seek : Seek} (sound : Sound seek) (hashname : String)
include sound

theorem identityFromHashname_linked :
    let found := identityFromHashname seek hashname
    ((found.2.mesh.peers found.1).hasActivePath ||
        (found.2.mesh.peers found.1).linkChannel.isSome) = linkedTo seek hashname ∧
      (linkedTo seek hashname = true → found.2 = seek) ∧
      ∀ other, linkedTo found.2 other = linkedTo seek other := by
  intro found
  unfold found identityFromHashname
  cases lookup : seek.identityCache.lookup hashname with
  | some identity =>
      refine ⟨?_, fun _ => rfl, fun _ => rfl⟩
      rw [linkedTo, lookup]
  | none =>
      have unlinked : linkedTo seek hashname = false := by rw [linkedTo, lookup]
      refine ⟨?_, fun linked => ?_, fun other => ?_⟩
      · rw [unlinked]
        simp [Mesh.updatePeer, withHashname]
      · rw [unlinked] at linked
        cases linked
      · unfold linkedTo
        rw [lookup_insert]
        by_cases same : other = hashname
        · rw [if_pos same, same, lookup]
          simp [Mesh.updatePeer, withHashname]
        · rw [if_neg same]
          cases held : seek.identityCache.lookup other with
          | none => rfl
          | some identity =>
              have old := Nat.ne_of_lt (sound.cached other identity held).1
              simp [Mesh.updatePeer, old]

end Lookups

/-! ## One line -/

section Lines
variable {beyond : Data} {order : ByteOrder} {stack : SockaddrIn} {transportPort : Nat}
  {responder : IdentityRef} {localHashname : String} {linking : Linking}

/-- A line of fewer than two fields, or one that names the local identity. -/
theorem seeLine_unread {line : String}
    (unread : ∀ hashname, namedBy line = some hashname →
      some hashname = linking.mesh.table.localIdentity) :
    seeLine beyond order stack transportPort responder linking line = .ok (false, linking) := by
  unfold seeLine
  unfold namedBy at unread
  split
  · rename_i hashname csid address fields
    rw [fields] at unread
    exact if_pos (unread hashname rfl)
  · rfl

/-- A line whose hashname has a distance in the table. -/
theorem seeLine_eq (sound : Sound linking.toSeek)
    (own : linking.mesh.table.localIdentity = some localHashname)
    {line hashname csid : String} {address : List String}
    (fields : componentsSeparatedByComma line = hashname :: csid :: address)
    (remote : some hashname ≠ linking.mesh.table.localIdentity) {index : Nat}
    (measured : distanceFrom beyond localHashname hashname = .ok index)
    (inside : index < linking.mesh.table.buckets.length) {identity : IdentityRef} {seek : Seek}
    (made : identityFromHashname linking.toSeek hashname = (identity, seek)) :
    seeLine beyond order stack transportPort responder linking line =
      if linkedTo linking.toSeek hashname then .ok (false, linking)
      else if hasRoom beyond localHashname linking.toSeek hashname then do
        let pathed ← seePath order stack transportPort identity address
          ((seek.ask identity (.suggestCipherSet csid)).ask identity (.addVia responder))
        return (false, { toSeek := pathed, opened := linking.opened ++ [identity] })
      else .ok (true, { linking with toSeek := seek.ask identity (.suggestCipherSet csid) }) := by
  obtain ⟨kept, _, _, named, _, _⟩ := identityFromHashname_spec sound hashname
  obtain ⟨linked, same, _⟩ := identityFromHashname_linked sound hashname
  rw [made] at kept named linked same
  dsimp only at kept named linked same
  have distance : localDistance beyond seek.mesh identity = .ok (index : Int) := by
    rw [localDistance, kept.table, own]
    dsimp only
    rw [named, measured]
  have home_ : home beyond localHashname hashname = index := by
    rw [home, measured]
    rfl
  have bucket : linking.mesh.table.objectAtIndex (index : Int) =
      .ok (linking.mesh.table.buckets.getD index []) := by
    rw [THMeshBuckets.objectAtIndex, if_neg (Int.not_lt.mpr (Int.natCast_nonneg _)),
      Int.toNat_natCast, List.getElem?_eq_getElem inside, List.getD_eq_getElem?_getD,
      List.getElem?_eq_getElem inside]
    rfl
  unfold seeLine
  simp only [fields, if_neg remote, made, distance, ok_bind, bucket, linked, kept.table,
    pure_eq_ok]
  by_cases already : linkedTo linking.toSeek hashname = true
  · rw [if_pos already, if_pos already, same already]
  · rw [if_neg already, if_neg already]
    by_cases room : hasRoom beyond localHashname linking.toSeek hashname = true
    · have free : ¬(maxLinks ≤ linking.mesh.table.linkTotal ∨
          bucketSize ≤ (linking.mesh.table.buckets.getD index []).length) := by
        simpa [hasRoom, home_] using room
      rw [if_neg free, if_pos room]
    · have full : maxLinks ≤ linking.mesh.table.linkTotal ∨
          bucketSize ≤ (linking.mesh.table.buckets.getD index []).length := by
        simpa [hasRoom, home_, imp_iff_not_or] using room
      rw [if_pos full, if_neg room]

theorem identityFromHashname_asks (seek : Seek) (hashname : String) :
    (identityFromHashname seek hashname).2.mesh.asked = seek.mesh.asked := by
  unfold identityFromHashname
  split <;> rfl

def pathRequests : List String → List Request
  | [ip, port] => [.addPath ip port]
  | _ => []

theorem seePath_asks {identity : IdentityRef} {address : List String} {seek pathed : Seek}
    (added : seePath order stack transportPort identity address seek = .ok pathed) :
    pathed.mesh.asked = seek.mesh.asked ++
      (pathRequests address).map fun request => (identity, request) := by
  rcases address with _ | ⟨ip, _ | ⟨port, _ | _⟩⟩
  case cons.cons.nil =>
    unfold seePath at added
    dsimp only at added
    split at added
    · cases added
    · cases added
      rfl
  all_goals
    cases added
    exact (List.append_nil _).symm

theorem seeRequests_fields {line hashname csid : String} {address : List String}
    (fields : componentsSeparatedByComma line = hashname :: csid :: address) :
    seeRequests responder line =
      some (hashname, .suggestCipherSet csid :: .addVia responder :: pathRequests address) := by
  unfold seeRequests
  rw [fields]
  rcases address with _ | ⟨ip, _ | ⟨port, _ | _⟩⟩ <;> rfl

/-- The handler asks of the identity it opens a line to what `seeRequests` reads of the text. -/
theorem seeLine_asks {line : String} {ends : Bool} {after : Linking}
    (read : seeLine beyond order stack transportPort responder linking line = .ok (ends, after))
    (opened : after.opened ≠ linking.opened) :
    ∃ hashname requests, seeRequests responder line = some (hashname, requests) ∧
      let identity := (identityFromHashname linking.toSeek hashname).1
      after.opened = linking.opened ++ [identity] ∧
      after.mesh.asked = linking.mesh.asked ++ requests.map fun request => (identity, request) := by
  unfold seeLine at read
  split at read
  case h_2 => cases read; exact (opened rfl).elim
  case h_1 hashname csid address fields =>
    have same := identityFromHashname_asks linking.toSeek hashname
    generalize made : identityFromHashname linking.toSeek hashname = found at read same
    by_cases own : some hashname = linking.mesh.table.localIdentity
    · rw [if_pos own] at read
      cases read
      exact (opened rfl).elim
    · rw [if_neg own] at read
      obtain ⟨bucketIndex, _, read⟩ := (bind_ok_iff _ _ _).mp read
      obtain ⟨bucket, _, read⟩ := (bind_ok_iff _ _ _).mp read
      dsimp only at read
      by_cases linked : ((found.2.mesh.peers found.1).hasActivePath ||
          (found.2.mesh.peers found.1).linkChannel.isSome) = true
      · rw [if_pos linked] at read
        cases read
        exact (opened rfl).elim
      · rw [if_neg linked] at read
        by_cases full : maxLinks ≤ found.2.mesh.table.linkTotal ∨ bucketSize ≤ bucket.length
        · rw [if_pos full] at read
          cases read
          exact (opened rfl).elim
        · rw [if_neg full] at read
          obtain ⟨pathed, added, read⟩ := (bind_ok_iff _ _ _).mp read
          cases read
          have asks := seePath_asks added
          simp only [Seek.ask, Mesh.ask, same, List.append_assoc] at asks
          refine ⟨hashname, _, seeRequests_fields fields, ?_⟩
          rw [made]
          exact ⟨rfl, asks⟩

end Lines

/-! ## The loop -/

/-- The state of the handler some lines after a moment at which nothing was opened. -/
structure Steady (start : Seek) (linking : Linking) : Prop where
  kept : Kept start linking.toSeek
  sound : Sound linking.toSeek
  links : ∀ hashname, linkedTo linking.toSeek hashname = linkedTo start hashname
  made : ∀ identity ∈ linking.opened, identity < linking.nextIdentity
  pool : pool linking.toSeek = pool start

theorem steady_start {seek : Seek} (sound : Sound seek) : Steady seek ⟨seek, []⟩ :=
  ⟨kept_refl seek, sound, fun _ => rfl, List.forall_mem_nil _, rfl⟩

section Steps
variable {beyond : Data} {order : ByteOrder} {stack : SockaddrIn} {transportPort : Nat}
  {responder : IdentityRef} {localHashname : String} {start : Seek} {linking : Linking}

theorem hasRoom_steady (steady : Steady start linking) (hashname : String) :
    hasRoom beyond localHashname linking.toSeek hashname =
      hasRoom beyond localHashname start hashname := by
  unfold hasRoom
  rw [steady.kept.table]

/-- Nothing happened but requests that are no queries. -/
def Asked (before after : Seek) : Prop :=
  ∃ requests, after = { before with
      mesh := { before.mesh with asked := before.mesh.asked ++ requests } } ∧
    ∀ request ∈ requests, queried request = none

theorem asked_ask (seek : Seek) {identity : IdentityRef} {request : Request}
    (other : queried (identity, request) = none) : Asked seek (seek.ask identity request) :=
  ⟨[(identity, request)], rfl, List.forall_mem_singleton.mpr other⟩

theorem asked_trans {one two three : Seek} (first : Asked one two) (second : Asked two three) :
    Asked one three := by
  obtain ⟨requests, rfl, others⟩ := first
  obtain ⟨later, rfl, alsoOthers⟩ := second
  refine ⟨requests ++ later, ?_, List.forall_mem_append.mpr ⟨others, alsoOthers⟩⟩
  simp only [List.append_assoc]

theorem asked_hashname {before after : Seek} (asked : Asked before after) :
    after.mesh.hashname = before.mesh.hashname := by
  obtain ⟨requests, rfl, _⟩ := asked
  rfl

theorem steady_asked {seek : Seek} (steady : Steady start linking)
    (asked : Asked linking.toSeek seek) : Steady start { linking with toSeek := seek } := by
  obtain ⟨requests, rfl, others⟩ := asked
  have same : queries { linking.toSeek with
      mesh := { linking.mesh with asked := linking.mesh.asked ++ requests } } =
        queries linking.toSeek := by
    unfold queries
    rw [List.filterMap_append, List.filterMap_eq_nil_iff.mpr others, List.append_nil]
  refine ⟨kept_trans steady.kept ⟨rfl, rfl, rfl, rfl, rfl, Nat.le_refl _, fun _ _ => rfl⟩,
    ⟨steady.sound.cached, steady.sound.seeking, steady.sound.waiting, ?_⟩, steady.links,
    steady.made, ?_⟩
  · rw [same]
    exact steady.sound.asked
  · rw [pool, same]
    exact steady.pool

theorem steady_identity (steady : Steady start linking) (hashname : String)
    {identity : IdentityRef} {seek : Seek}
    (found : identityFromHashname linking.toSeek hashname = (identity, seek)) :
    Steady start { linking with toSeek := seek } := by
  obtain ⟨kept, sound, _, _, asked, job⟩ := identityFromHashname_spec steady.sound hashname
  have links := (identityFromHashname_linked steady.sound hashname).2.2
  rw [found] at kept sound asked job links
  refine ⟨kept_trans steady.kept kept, sound, fun other => (links other).trans (steady.links other),
    fun other member => Nat.lt_of_lt_of_le (steady.made other member) kept.newer, ?_⟩
  rw [← steady.pool, pool, asked, job]
  rfl

section Found
variable (steady : Steady start linking) {hashname : String} {identity : IdentityRef}
  {seek after : Seek} (found : identityFromHashname linking.toSeek hashname = (identity, seek))
  (asked : Asked seek after)
include steady found asked

theorem openedNames_found : linking.opened.map after.mesh.hashname = openedNames linking := by
  obtain ⟨kept, _⟩ := identityFromHashname_spec steady.sound hashname
  rw [found] at kept
  rw [asked_hashname asked]
  exact List.map_congr_left fun other member => kept.names other (steady.made other member)

/-- An identity is opened after what is asked of it. -/
theorem steady_opened :
    Steady start { toSeek := after, opened := linking.opened ++ [identity] } ∧
      openedNames { toSeek := after, opened := linking.opened ++ [identity] } =
        openedNames linking ++ [hashname] := by
  have steadyAfter := steady_asked (steady_identity steady hashname found) asked
  obtain ⟨_, _, new, named, _⟩ := identityFromHashname_spec steady.sound hashname
  rw [found] at new named
  have same : after.nextIdentity = seek.nextIdentity := by
    obtain ⟨_, rfl, _⟩ := asked
    rfl
  rw [← same] at new
  refine ⟨⟨steadyAfter.kept, steadyAfter.sound, steadyAfter.links, ?_, steadyAfter.pool⟩, ?_⟩
  · exact List.forall_mem_append.mpr ⟨steadyAfter.made, List.forall_mem_singleton.mpr new⟩
  · have names := openedNames_found steady found asked
    rw [openedNames, List.map_append, names, List.map_singleton, asked_hashname asked, named]

end Found

theorem unsignedArgument_integerValue (text : String) :
    unsignedArgument (integerValue text) = 0 ↔ integerValue text = 0 := by
  have digits : ∀ characters, 0 ≤ digitsValue characters := fun _ => Int.natCast_nonneg _
  have range : -2 ^ 63 ≤ integerValue text ∧ integerValue text ≤ 2 ^ 63 - 1 := by
    unfold integerValue
    generalize text.toList.dropWhile Char.isWhitespace = characters
    split
    · rename_i rest
      have natural := digits rest
      omega
    · rename_i rest
      have natural := digits rest
      omega
    · have natural := digits characters
      omega
  unfold unsignedArgument uintModulus
  omega

theorem wellFormed_named {line hashname : String} (wellFormed : WellFormed line)
    (named : namedBy line = some hashname) : IsHashname hashname := by
  unfold WellFormed at wellFormed
  unfold namedBy at named
  split at wellFormed
  · rename_i fields
    rw [fields] at named
    cases named
    exact wellFormed
  · rename_i fields
    rw [fields] at named
    cases named
    exact wellFormed.1
  · exact wellFormed.elim

/-- A well-formed line names a hashname, and no path of it is nil. -/
theorem wellFormed_fields {line : String} (wellFormed : WellFormed line) :
    ∃ hashname csid address, componentsSeparatedByComma line = hashname :: csid :: address ∧
      IsHashname hashname ∧ ∀ (identity : IdentityRef) (seek : Seek),
        ∃ after, seePath order stack transportPort identity address seek = .ok after ∧
          Asked seek after := by
  unfold WellFormed at wellFormed
  split at wellFormed
  · rename_i hashname csid fields
    exact ⟨hashname, csid, [], fields, wellFormed, fun _ seek =>
      ⟨seek, rfl, [], by rw [List.append_nil], List.forall_mem_nil _⟩⟩
  · rename_i hashname csid ip port fields
    refine ⟨hashname, csid, [ip, port], fields, wellFormed.1, fun identity seek => ?_⟩
    have positive := mt (unsignedArgument_integerValue port).mp wellFormed.2
    refine ⟨_, ?_, asked_ask seek (@rfl _ (queried (identity, .addPath ip port)))⟩
    rw [seePath, initWithTransport, if_neg positive]
  · exact wellFormed.elim

variable (own : IsHashname localHashname)
  (around : start.mesh.table.localIdentity = some localHashname)
  (count : start.mesh.table.buckets.length = 256)
include own around count

/-- A well-formed line does what its hashname tells. -/
theorem seeLine_wellFormed (steady : Steady start linking) {line : String}
    (wellFormed : WellFormed line) :
    ∃ after, seeLine beyond order stack transportPort responder linking line =
        .ok (endsLoop beyond localHashname start line, after) ∧
      Steady start after ∧
      openedNames after = openedNames linking ++ opensTo beyond localHashname start line := by
  obtain ⟨hashname, csid, address, fields, is, paths⟩ :=
    @wellFormed_fields order stack transportPort line wellFormed
  have named : namedBy line = some hashname := by rw [namedBy, fields]
  have table := steady.kept.table
  have measured := distanceFrom_hashname beyond own is
  have inside : logDistance (hashValue localHashname) (hashValue hashname) <
      linking.mesh.table.buckets.length := by
    rw [table, count]
    exact logDistance_lt (by decide) (hashValue_lt own) (hashValue_lt is)
  unfold endsLoop opensTo
  rw [followed, named, Option.filter_some]
  by_cases itself : some hashname = start.mesh.table.localIdentity
  · refine ⟨linking, ?_, steady, ?_⟩
    · rw [seeLine_unread fun other same => by rw [table, ← itself, ← same, named]]
      simp [itself]
    · simp [itself]
  · have remote : some hashname ≠ linking.mesh.table.localIdentity := by rwa [table]
    cases made : identityFromHashname linking.toSeek hashname with
    | mk identity seek =>
        have step := @seeLine_eq beyond order stack transportPort responder _ _ steady.sound
          (by rw [table]; exact around) _ _ _ _ fields remote _ measured inside _ _ made
        rw [steady.links, hasRoom_steady steady] at step
        by_cases linked : linkedTo start hashname = true
        · refine ⟨linking, ?_, steady, ?_⟩
          · rw [step, if_pos linked]
            simp [linked]
          · simp [linked]
        · rw [if_neg linked] at step
          have suggested := asked_ask seek (@rfl _ (queried (identity, .suggestCipherSet csid)))
          by_cases room : hasRoom beyond localHashname start hashname = true
          · have via := asked_trans suggested (asked_ask _
              (@rfl _ (queried (identity, .addVia responder))))
            obtain ⟨pathed, added, asked⟩ := paths identity
              ((seek.ask identity (.suggestCipherSet csid)).ask identity (.addVia responder))
            obtain ⟨steadyOpened, names⟩ := steady_opened steady made (asked_trans via asked)
            refine ⟨_, ?_, steadyOpened, ?_⟩
            · rw [step, if_pos room, added]
              simp [itself, linked, room]
            · rw [names]
              simp [itself, linked, room, Option.filter_some]
          · refine ⟨_, ?_, steady_asked (steady_identity steady hashname made) suggested, ?_⟩
            · rw [step, if_neg room]
              simp [itself, linked, room]
            · rw [openedNames, openedNames_found steady made suggested]
              simp [itself, linked, room]

end Steps

/-! ## Orders of the lines -/

section Orders
variable (beyond : Data) (order : ByteOrder) (stack : SockaddrIn) (transportPort : Nat)
  (responder : IdentityRef) (localHashname : String) (seek : Seek)

/-- Among the lines is one for which the handler calls `openLine:` with an
identity of this hashname. -/
def Opens (lines : List String) (hashname : String) : Prop :=
  ∃ ended after,
    seeLoop beyond order stack transportPort responder ⟨seek, []⟩ lines = .ok (ended, after) ∧
      hashname ∈ openedNames after

/-- The lines are opened alike in every order, and each that is followed to a
bucket with room is opened whatever stands before it. -/
structure OrderFree (lines : List String) : Prop where
  same : ∀ one other, List.Perm one lines → List.Perm other lines → ∀ hashname,
    Opens beyond order stack transportPort responder seek one hashname ↔
      Opens beyond order stack transportPort responder seek other hashname
  unsuppressed : ∀ arranged, List.Perm arranged lines → ∀ line ∈ lines, ∀ hashname,
    followed seek line = some hashname → hasRoom beyond localHashname seek hashname = true →
    Opens beyond order stack transportPort responder seek arranged hashname

variable {beyond order stack transportPort responder localHashname seek}

theorem endsLoop_eq_false_iff (line : String) :
    endsLoop beyond localHashname seek line = false ↔ ∀ hashname,
      followed seek line = some hashname → hasRoom beyond localHashname seek hashname = true := by
  unfold endsLoop
  cases followed seek line <;> simp [Option.filter_some]

theorem opensTo_eq_nil_iff (line : String) :
    opensTo beyond localHashname seek line = [] ↔ ∀ hashname,
      followed seek line = some hashname → ¬hasRoom beyond localHashname seek hashname = true := by
  unfold opensTo
  cases followed seek line <;> simp [Option.filter_some]

theorem mem_opensTo_iff (line hashname : String) :
    hashname ∈ opensTo beyond localHashname seek line ↔
      followed seek line = some hashname ∧ hasRoom beyond localHashname seek hashname = true := by
  rw [opensTo, Option.mem_toList, Option.filter_eq_some_iff]

theorem endsLoop_silent (line : String) (ends : endsLoop beyond localHashname seek line = true) :
    opensTo beyond localHashname seek line = [] := by
  rw [opensTo_eq_nil_iff]
  intro hashname follows room
  rw [endsLoop, follows] at ends
  simp [room] at ends

variable (own : IsHashname localHashname)
  (around : seek.mesh.table.localIdentity = some localHashname)
  (count : seek.mesh.table.buckets.length = 256) (sound : Sound seek)
include own around count sound

/-- What is opened is what the lines tell up to the first that ends the loop. -/
theorem opens_iff (lines : List String) (wellFormed : ∀ line ∈ lines, WellFormed line)
    (hashname : String) :
    Opens beyond order stack transportPort responder seek lines hashname ↔
      hashname ∈ (reached (endsLoop beyond localHashname seek) lines).flatMap
        (opensTo beyond localHashname seek) := by
  have brings := @loop_brings _ _ _ _ (seeLine beyond order stack transportPort responder)
    (endsLoop beyond localHashname seek) (opensTo beyond localHashname seek) (Steady seek)
    WellFormed openedNames
    (fun linking line steady fine => seeLine_wellFormed own around count steady fine)
    ⟨seek, []⟩ lines (steady_start sound)
    (fun line member => wellFormed line ((reached_sublist lines).subset member))
  obtain ⟨ended, after, computed, _, opened⟩ := brings
  have names : openedNames after = (reached (endsLoop beyond localHashname seek) lines).flatMap
      (opensTo beyond localHashname seek) := opened
  rw [← names]
  constructor
  · rintro ⟨ended', after', computed', member⟩
    cases computed.symm.trans computed'
    exact member
  · exact fun member => ⟨ended, after, computed, member⟩

/-- Well-formed lines are opened whatever their order exactly if all lines that
are not passed by lead to buckets with room, or all of them to full ones. -/
theorem see_order_free_iff (lines : List String) (wellFormed : ∀ line ∈ lines, WellFormed line) :
    OrderFree beyond order stack transportPort responder localHashname seek lines ↔
      (∀ line ∈ lines, ∀ hashname, followed seek line = some hashname →
        hasRoom beyond localHashname seek hashname = true) ∨
      ∀ line ∈ lines, ∀ hashname, followed seek line = some hashname →
        ¬hasRoom beyond localHashname seek hashname = true := by
  have opens : ∀ arranged, List.Perm arranged lines → ∀ hashname,
      Opens beyond order stack transportPort responder seek arranged hashname ↔
        hashname ∈ (reached (endsLoop beyond localHashname seek) arranged).flatMap
          (opensTo beyond localHashname seek) := fun arranged perm hashname =>
    opens_iff own around count sound arranged
      (fun line member => wellFormed line (perm.mem_iff.mp member)) hashname
  have everyOrder := sameInEveryOrder_iff (@endsLoop_silent beyond localHashname seek) lines
  simp only [endsLoop_eq_false_iff, opensTo_eq_nil_iff] at everyOrder
  rw [← everyOrder]
  constructor
  · intro free arranged perm hashname
    rw [← opens arranged perm hashname]
    constructor
    · intro opened
      obtain ⟨line, member, tells⟩ := List.mem_flatMap.mp ((opens arranged perm hashname).mp opened)
      exact List.mem_flatMap.mpr
        ⟨line, perm.mem_iff.mp ((reached_sublist arranged).subset member), tells⟩
    · intro told
      obtain ⟨line, member, tells⟩ := List.mem_flatMap.mp told
      obtain ⟨follows, room⟩ := (mem_opensTo_iff line hashname).mp tells
      exact free.unsuppressed arranged perm line member hashname follows room
  · intro every
    constructor
    · intro one other first second hashname
      rw [opens one first, opens other second, every one first, every other second]
    · intro arranged perm line member hashname follows room
      rw [opens arranged perm, every arranged perm]
      exact List.mem_flatMap.mpr ⟨line, member, (mem_opensTo_iff line hashname).mpr ⟨follows, room⟩⟩

end Orders

/-- Eight peers whose hashnames differ in their last digit alone. -/
def eightPeers : Mesh where
  table := THMeshBuckets.init (some originHashname)
  peers := fun identity => withHashname
    (String.ofList (farHashname.toList.take 63 ++ [hexCharacters.getD identity '0']))
  asked := []

/-- They fill the bucket of the far hashname. -/
def crowded : Seek where
  mesh := Runs.run (RoutingTable.step [] stableSort) eightPeers
    ((List.range 8).map RoutingTable.Event.addIdentity)
  identityCache := (List.range 8).foldl
    (fun cache identity => cache.insert (eightPeers.hashname identity) identity) .empty
  nextIdentity := 8
  hasTransport := true
  job := ⟨0, [], 0, true⟩
  completed := []

def farLine : String := farHashname ++ ",2a"

def remoteLine : String := remoteHashname ++ ",2a,127.0.0.1,42424"

theorem remoteSeek_sound : Sound remoteSeek := by
  refine ⟨fun hashname identity found => ?_, by decide, List.forall_mem_nil _,
    List.forall_mem_nil _⟩
  cases found

theorem room_for_all :
    OrderFree [] .littleEndian ⟨0, 0, ⟨0, 0, 0, 0⟩⟩ 0 0 originHashname remoteSeek
      [farLine, remoteLine] := by
  have wellFormed : ∀ line ∈ [farLine, remoteLine], WellFormed line := by decide +kernel
  apply (see_order_free_iff originHashname_is rfl List.length_replicate remoteSeek_sound _
    wellFormed).mpr
  left
  have rooms : ∀ line ∈ [farLine, remoteLine],
      endsLoop [] originHashname remoteSeek line = false := by decide +kernel
  exact fun line member => (endsLoop_eq_false_iff line).mp (rooms line member)

/-- With the far hashname first the remote one is not opened. -/
theorem full_bucket_suppresses :
    ¬OrderFree [] .littleEndian ⟨0, 0, ⟨0, 0, 0, 0⟩⟩ 0 0 originHashname crowded
      [farLine, remoteLine] := by
  intro free
  have opened : ((seeLoop [] .littleEndian ⟨0, 0, ⟨0, 0, 0, 0⟩⟩ 0 0 ⟨crowded, []⟩
        [farLine, remoteLine]).toOption.map (fun result => openedNames result.2) = some []) ∧
      (seeLoop [] .littleEndian ⟨0, 0, ⟨0, 0, 0, 0⟩⟩ 0 0 ⟨crowded, []⟩
        [remoteLine, farLine]).toOption.map (fun result => openedNames result.2) =
          some [remoteHashname] := by
    decide +kernel
  have opens : Opens [] .littleEndian ⟨0, 0, ⟨0, 0, 0, 0⟩⟩ 0 0 crowded [remoteLine, farLine]
      remoteHashname := by
    have second := opened.2
    cases computed : seeLoop [] .littleEndian ⟨0, 0, ⟨0, 0, 0, 0⟩⟩ 0 0 ⟨crowded, []⟩
        [remoteLine, farLine] with
    | error fault =>
        rw [computed] at second
        cases second
    | ok result =>
        rw [computed] at second
        have names : openedNames result.2 = [remoteHashname] := Option.some.inj second
        exact ⟨result.1, result.2, computed, by rw [names]; exact List.mem_singleton.mpr rfl⟩
  obtain ⟨ended, after, computed, member⟩ :=
    (free.same _ _ (List.Perm.refl _) (List.Perm.swap _ _ _) remoteHashname).mpr opens
  have first := opened.1
  rw [computed] at first
  have none : openedNames after = [] := Option.some.inj first
  rw [none] at member
  cases member

end Telehash.LinkSees
