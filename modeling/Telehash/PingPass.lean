import Telehash.MeshFrames
import Telehash.MutableEnumeration
import Telehash.RoutingTable

/-!
A whole pass of `pingLines` in THMeshBuckets.m. It takes each bucket for itself
and removes from it while going through its indices, so what stands behind a
removed identity is passed by.
-/

namespace Telehash.PingPass
open Foundation Channel Distance MeshBuckets MeshFrames Buckets Placement MutableEnumeration
open Runs RoutingTable
open Identity (IdentityRef LineRef ChannelRef)

/-! ## What a pass is to do -/

section Due
variable (checkTime : Nat)

def staleLink (peer : Peer) : Bool :=
  match peer.linkChannel with
  | some linkChannel => stale checkTime linkChannel
  | none => false

/-- A reset of a stale link, a ping along a path or a relay, or else a re-open;
nothing without a link channel. -/
def Due (peer : Peer) (requests : List Request) : Prop :=
  match peer.linkChannel with
  | none => requests = []
  | some linkChannel =>
      if stale checkTime linkChannel then requests = [.reset]
      else if peer.hasActivePath || peer.hasPeerChannel then requests = [.ping linkChannel.ref]
      else ∃ line, requests = [.sendOpen line]

def requestsTo (identity : IdentityRef) (asked : List (IdentityRef × Request)) : List Request :=
  (asked.filter fun request => request.1 = identity).map Prod.snd

/-- The stale identities have left their buckets, and every identity of the
table was asked what is due, and no other one anything. -/
structure Treats (mesh after : Mesh) : Prop where
  removed : ∀ index : Nat, after.table.buckets[index]? =
    mesh.table.buckets[index]?.map fun bucket =>
      bucket.filter fun identity => !staleLink checkTime (mesh.peers identity)
  asked : ∃ requests, after.asked = mesh.asked ++ requests ∧
    (∀ identity ∈ mesh.table.buckets.flatten,
      Due checkTime (mesh.peers identity) (requestsTo identity requests)) ∧
    ∀ identity, identity ∉ mesh.table.buckets.flatten → requestsTo identity requests = []

/-- Nobody without a link channel comes first, or anywhere but right behind a
stale one, where nobody else comes; and where there is neither path nor relay
there is a line. -/
structure Orderly (peers : IdentityRef → Peer) (bucket : List IdentityRef) : Prop where
  first : ∀ identity ∈ bucket.head?, ¬(peers identity).linkChannel = none
  alternate : bucket.IsChain fun identity next =>
    (peers next).linkChannel = none ↔ staleLink checkTime (peers identity) = true
  lines : ∀ identity ∈ bucket, ∀ linkChannel, (peers identity).linkChannel = some linkChannel →
    stale checkTime linkChannel = false →
    (peers identity).hasActivePath = false → (peers identity).hasPeerChannel = false →
    (peers identity).currentLine.isSome

/-- What an identity is asked when it is its turn. -/
def requestsOf (peer : Peer) : List Request :=
  match peer.linkChannel with
  | none => [.reset]
  | some linkChannel =>
      if stale checkTime linkChannel then [.reset]
      else if peer.hasActivePath || peer.hasPeerChannel then [.ping linkChannel.ref]
      else (peer.currentLine.map Request.sendOpen).toList

variable {checkTime} {peer : Peer}

/-- What is asked in turn is due of a linked identity, if there is a line to open again. -/
theorem due_requestsOf_iff :
    Due checkTime peer (requestsOf checkTime peer) ↔
      ¬peer.linkChannel = none ∧
        ∀ linkChannel, peer.linkChannel = some linkChannel → stale checkTime linkChannel = false →
          peer.hasActivePath = false → peer.hasPeerChannel = false → peer.currentLine.isSome := by
  unfold Due requestsOf
  cases peer.linkChannel with
  | none => simp
  | some linkChannel =>
      cases old : stale checkTime linkChannel with
      | true => simp [old]
      | false =>
          cases peer.hasActivePath <;> cases peer.hasPeerChannel <;> cases peer.currentLine <;>
            simp [old]

theorem due_nothing_iff : Due checkTime peer [] ↔ peer.linkChannel = none := by
  unfold Due
  cases peer.linkChannel with
  | none => simp
  | some linkChannel =>
      cases old : stale checkTime linkChannel <;>
        cases peer.hasActivePath <;> cases peer.hasPeerChannel <;> simp [old]

theorem linked_of_stale (old : staleLink checkTime peer = true) : ¬peer.linkChannel = none := by
  intro unlinked
  rw [staleLink, unlinked] at old
  cases old

end Due

/-! ## Single turns -/

/-- What was asked and the other peers stay. -/
def Quiet (identity : IdentityRef) (after before : Mesh) : Prop :=
  after.asked = before.asked ∧ ∀ other, other ≠ identity → after.peers other = before.peers other

theorem quiet_framed (identity : IdentityRef) : Framed (Quiet identity) identity where
  refl := fun _ => ⟨rfl, fun _ _ => rfl⟩
  trans := fun later earlier => ⟨later.1.trans earlier.1, fun other different =>
    (later.2 other different).trans (earlier.2 other different)⟩
  setBucket := fun _ _ _ => ⟨rfl, fun _ _ => rfl⟩
  updatePeer := fun _ _ => ⟨rfl, fun _ different => Function.update_of_ne different _ _⟩

/-- Some identities had their turn: each was asked what it is to be, and of the
others all that is known stays. -/
structure Turned (asks : IdentityRef → List Request) (turns : List IdentityRef)
    (after before : Mesh) : Prop where
  asked : after.asked = before.asked ++
    turns.flatMap fun identity => (asks identity).map fun request => (identity, request)
  peers : ∀ other, other ∉ turns → after.peers other = before.peers other
  reduces : Reduces after before

section Turns
variable {beyond : Data} {localHashname : String} {mesh : Mesh} {identity : IdentityRef}
  {asks : IdentityRef → List Request}

theorem turned_refl (mesh : Mesh) : Turned asks [] mesh mesh :=
  ⟨(List.append_nil _).symm, fun _ _ => rfl, Reduces.refl mesh⟩

theorem Turned.trans {turns later : List IdentityRef} {after middle before : Mesh}
    (second : Turned asks later after middle) (first : Turned asks turns middle before) :
    Turned asks (turns ++ later) after before where
  asked := by rw [second.asked, first.asked, List.flatMap_append, List.append_assoc]
  peers := by
    intro other absent
    rw [List.mem_append, not_or] at absent
    rw [second.peers other absent.2, first.peers other absent.1]
  reduces := second.reduces.trans first.reduces

variable (own : IsHashname localHashname) (placed : Placed beyond localHashname mesh)
  (named : IsHashname (mesh.hashname identity))
include own placed named

theorem reset_asks {before : Mesh} (asked : mesh.asked = before.asked)
    (others : ∀ other, other ≠ identity → mesh.peers other = before.peers other) :
    ∃ after, MeshBuckets.reset beyond mesh identity = .ok after ∧ Keeps after mesh ∧
      after.asked = before.asked ++ [(identity, .reset)] ∧
      ∀ other, other ≠ identity → after.peers other = before.peers other := by
  obtain ⟨after, computed, keeps⟩ := reset_keeps own placed named
  have quiet := reset_leaves (quiet_framed identity)
    ((quiet_framed identity).refl (mesh.ask identity .reset)) after computed
  refine ⟨after, computed, keeps, ?_, ?_⟩
  · rw [quiet.1, Mesh.ask, asked]
  · exact fun other different => (quiet.2 other different).trans (others other different)

/-- A turn asks one identity what it is to be asked, and removes it if it is stale. -/
theorem pingIdentity_turned (checkTime : Nat)
    (due : asks identity = requestsOf checkTime (mesh.peers identity)) {bucketIndex : Nat}
    (idx : Nat) {bucket : List IdentityRef}
    (found : mesh.table.buckets[bucketIndex]? = some bucket) :
    ∃ after, pingIdentity beyond checkTime bucketIndex idx identity mesh = .ok after ∧
      Turned asks [identity] after mesh ∧
      after.table.buckets =
        if staleLink checkTime (mesh.peers identity) then
          mesh.table.buckets.set bucketIndex (bucket.eraseIdx idx)
        else mesh.table.buckets := by
  have alone : ∀ other : IdentityRef, other ∉ [identity] → other ≠ identity :=
    fun other absent => mt List.mem_singleton.mpr absent
  have asked : ([identity].flatMap fun identity =>
      (asks identity).map fun request => (identity, request)) =
        (requestsOf checkTime (mesh.peers identity)).map fun request => (identity, request) := by
    rw [List.flatMap_singleton, due]
  unfold pingIdentity staleLink
  dsimp only
  cases linked : (mesh.peers identity).linkChannel with
  | none =>
      obtain ⟨after, computed, keeps, told, others⟩ :=
        reset_asks own placed named (@rfl _ mesh.asked) fun _ _ => rfl
      refine ⟨after, computed, ⟨?_, ?_, keeps.reduces⟩, ?_⟩
      · rw [told, asked, requestsOf, linked]
        rfl
      · exact fun other absent => others other (alone other absent)
      · rw [keeps.table]
        rfl
  | some linkChannel =>
      cases old : stale checkTime linkChannel with
      | true =>
          have reduces : Reduces ((mesh.setBucket bucketIndex
              ((mesh.table.buckets.getD bucketIndex []).eraseIdx idx)).updatePeer identity
                fun peer => { peer with linkChannel := none }) mesh := dropped_reduces found
          have dropped := @reset_asks beyond localHashname _ identity own (placed.reduce reduces)
            (by rw [reduces.hashnames]; exact named) mesh rfl
            fun other different => Function.update_of_ne different _ _
          obtain ⟨after, computed, keeps, told, others⟩ := dropped
          refine ⟨after, ?_, ⟨?_, ?_, keeps.reduces.trans reduces⟩, ?_⟩
          · simp only [old, ↓reduceIte]
            exact computed
          · simp only [told, asked, requestsOf, linked, old, ↓reduceIte]
            rfl
          · exact fun other absent => others other (alone other absent)
          · simp only [keeps.table, Mesh.updatePeer, Mesh.setBucket, List.getD_eq_getElem?_getD,
              found, Option.getD_some, old, ↓reduceIte]
      | false =>
          simp only [old, Bool.false_eq_true, ↓reduceIte]
          by_cases reachable : ((mesh.peers identity).hasActivePath ||
              (mesh.peers identity).hasPeerChannel) = true
          · rw [if_pos reachable]
            refine ⟨_, rfl, ⟨?_, fun _ _ => rfl, (keeps_ask _).reduces⟩, rfl⟩
            rw [asked, requestsOf, linked]
            simp only [old, Bool.false_eq_true, ↓reduceIte, reachable]
            rfl
          · rw [if_neg reachable]
            cases line : (mesh.peers identity).currentLine with
            | none =>
                refine ⟨mesh, rfl, ⟨?_, fun _ _ => rfl, Reduces.refl mesh⟩, rfl⟩
                rw [asked, requestsOf, linked]
                simp [old, reachable, line]
            | some line_ =>
                refine ⟨_, rfl, ⟨?_, fun _ _ => rfl, (keeps_ask _).reduces⟩, rfl⟩
                rw [asked, requestsOf, linked]
                simp [old, reachable, line, Mesh.ask]

end Turns

/-! ## One bucket -/

section Bucket
variable {beyond : Data} {localHashname : String} {checkTime bucketIndex : Nat}
  {seen rest : List IdentityRef} {identity : IdentityRef}

theorem pingBucket_past {mesh : Mesh} {bucket : List IdentityRef}
    (found : mesh.table.buckets[bucketIndex]? = some bucket) {idx : Nat}
    (past : bucket.length ≤ idx) (fuel : Nat) :
    pingBucket beyond checkTime bucketIndex fuel idx mesh = .ok mesh := by
  cases fuel with
  | zero => rfl
  | succ fuel =>
      rw [pingBucket, List.getD_eq_getElem?_getD, found, Option.getD_some,
        List.getElem?_eq_none past]

theorem pingBucket_turn {mesh : Mesh}
    (found : mesh.table.buckets[bucketIndex]? = some (seen ++ identity :: rest)) (fuel : Nat) :
    pingBucket beyond checkTime bucketIndex (fuel + 1) seen.length mesh =
      pingIdentity beyond checkTime bucketIndex seen.length identity mesh >>=
        pingBucket beyond checkTime bucketIndex fuel (seen.length + 1) := by
  rw [pingBucket, List.getD_eq_getElem?_getD, found, Option.getD_some,
    List.getElem?_append_right (Nat.le_refl _), Nat.sub_self, List.getElem?_cons_zero]

variable {asks : IdentityRef → List Request} {wanted : IdentityRef → Bool}

/-- What each of some identities is to be asked, and which of them are stale. -/
def Foreseen (checkTime : Nat) (asks : IdentityRef → List Request) (wanted : IdentityRef → Bool)
    (identities : List IdentityRef) (mesh : Mesh) : Prop :=
  ∀ identity ∈ identities, asks identity = requestsOf checkTime (mesh.peers identity) ∧
    wanted identity = staleLink checkTime (mesh.peers identity)

/-- The turns of others change nothing of it. -/
theorem Foreseen.still {identities turns later : List IdentityRef} {after mesh : Mesh}
    (foreseen : Foreseen checkTime asks wanted identities mesh)
    (turned : Turned asks turns after mesh) (subset : later ⊆ identities)
    (others : ∀ identity ∈ later, identity ∉ turns) :
    Foreseen checkTime asks wanted later after := by
  intro identity member
  rw [turned.peers identity (others identity member)]
  exact foreseen identity (subset member)

variable (own : IsHashname localHashname)
include own

/-- The turn of one entry leaves it where it stands, or takes it out if it is stale. -/
theorem pingIdentity_swept {mesh : Mesh} (placed : Placed beyond localHashname mesh)
    (found : mesh.table.buckets[bucketIndex]? = some (seen ++ identity :: rest))
    (foreseen : asks identity = requestsOf checkTime (mesh.peers identity) ∧
      wanted identity = staleLink checkTime (mesh.peers identity)) :
    ∃ after,
      pingIdentity beyond checkTime bucketIndex seen.length identity mesh = .ok after ∧
      Turned asks [identity] after mesh ∧
      after.table.buckets = mesh.table.buckets.set bucketIndex
        (seen ++ if wanted identity then rest else identity :: rest) := by
  have named := placed.named_member found (List.mem_append_right _ List.mem_cons_self)
  obtain ⟨after, computed, turned, buckets⟩ :=
    pingIdentity_turned own placed named checkTime foreseen.1 seen.length found
  refine ⟨after, computed, turned, ?_⟩
  rw [buckets, foreseen.2]
  cases staleLink checkTime (mesh.peers identity) with
  | true =>
      simp only [↓reduceIte, List.eraseIdx_append_of_length_le (Nat.le_refl _), Nat.sub_self,
        List.eraseIdx_cons_zero]
  | false =>
      obtain ⟨inside, same⟩ := List.getElem?_eq_some_iff.mp found
      simp only [Bool.false_eq_true, ↓reduceIte, ← same, List.set_getElem_self]

omit own in
/-- After a turn that leaves some entry at its index the enumeration goes on behind that entry. -/
theorem pingBucket_onward {mesh middle after : Mesh} {entry : IdentityRef}
    {left swept turns : List IdentityRef} {fuel : Nat}
    (found : mesh.table.buckets[bucketIndex]? = some (seen ++ identity :: rest))
    (computed : pingIdentity beyond checkTime bucketIndex seen.length identity mesh = .ok middle)
    (turned : Turned asks [identity] middle mesh)
    (buckets : middle.table.buckets =
      mesh.table.buckets.set bucketIndex (seen ++ entry :: left))
    (later : pingBucket beyond checkTime bucketIndex fuel (seen ++ [entry]).length middle =
      .ok after)
    (others : Turned asks turns after middle)
    (last : after.table.buckets =
      middle.table.buckets.set bucketIndex (seen ++ [entry] ++ swept)) :
    pingBucket beyond checkTime bucketIndex (fuel + 1) seen.length mesh = .ok after ∧
      Turned asks (identity :: turns) after mesh ∧
      after.table.buckets = mesh.table.buckets.set bucketIndex (seen ++ entry :: swept) := by
  refine ⟨?_, others.trans turned, ?_⟩
  · rw [pingBucket_turn found, computed, ok_bind]
    simpa using later
  · rw [last, buckets, List.set_set, List.append_assoc]
    rfl

/-- From some index on the bucket is swept, and the identities that have their
turn are those the enumeration visits. -/
theorem pingBucket_swept (rest : List IdentityRef) (fuel : Nat) (seen : List IdentityRef)
    (mesh : Mesh) (placed : Placed beyond localHashname mesh)
    (found : mesh.table.buckets[bucketIndex]? = some (seen ++ rest)) (unique : rest.Nodup)
    (foreseen : Foreseen checkTime asks wanted rest mesh) (enough : rest.length ≤ fuel) :
    ∃ after, pingBucket beyond checkTime bucketIndex fuel seen.length mesh = .ok after ∧
      Turned asks (visited wanted rest) after mesh ∧
      after.table.buckets =
        mesh.table.buckets.set bucketIndex (seen ++ (sweep wanted rest).array) := by
  have inside := (List.getElem?_eq_some_iff.mp found).1
  induction rest using visited.induct wanted generalizing seen mesh fuel with
  | case1 =>
      refine ⟨mesh, pingBucket_past found (by simp) fuel, turned_refl mesh, ?_⟩
      have same := (List.getElem?_eq_some_iff.mp found).2
      rw [sweep, ← same, List.set_getElem_self]
  | case2 item =>
      obtain ⟨fuel, rfl⟩ := Nat.exists_eq_succ_of_ne_zero (Nat.ne_of_gt enough)
      obtain ⟨after, computed, turned, buckets⟩ :=
        pingIdentity_swept own placed found (foreseen item List.mem_cons_self)
      have left : after.table.buckets[bucketIndex]? =
          some (seen ++ if wanted item then [] else [item]) := by
        rw [buckets, List.getElem?_set_self inside]
      have past : (seen ++ if wanted item then [] else [item]).length ≤ seen.length + 1 := by
        rw [List.length_append]
        split <;> simp
      refine ⟨after, ?_, turned, ?_⟩
      · rw [pingBucket_turn found, computed, ok_bind, pingBucket_past left past]
      · rw [buckets, sweep]
        cases wanted item <;> rfl
  | case3 item next rest hit ih =>
      obtain ⟨fuel, rfl⟩ := Nat.exists_eq_succ_of_ne_zero
        (Nat.ne_of_gt (Nat.lt_of_lt_of_le (Nat.succ_pos _) enough))
      obtain ⟨middle, computed, turned, buckets⟩ :=
        pingIdentity_swept own placed found (foreseen item List.mem_cons_self)
      simp only [hit, ↓reduceIte] at buckets
      rw [List.nodup_cons, List.mem_cons, not_or, List.nodup_cons] at unique
      have still : Foreseen checkTime asks wanted rest middle := by
        apply foreseen.still turned
        · exact fun _ member => List.mem_cons_of_mem _ (List.mem_cons_of_mem _ member)
        · rintro other member (same | ⟨_, ⟨⟩⟩)
          exact unique.1.2 member
      have found' : middle.table.buckets[bucketIndex]? = some (seen ++ [next] ++ rest) := by
        rw [buckets, List.getElem?_set_self inside, List.append_assoc]
        rfl
      -- the next entry has moved to the index already passed
      obtain ⟨after, later, others, last⟩ := ih fuel (seen ++ [next]) middle
        (placed.reduce turned.reduces) found' unique.2.2 still
        (by simp only [List.length_cons] at enough; omega)
        (by rw [buckets, List.length_set]; exact inside)
      simp only [visited, sweep, hit, ↓reduceIte]
      exact ⟨after, pingBucket_onward found computed turned buckets later others last⟩
  | case4 item next rest miss ih =>
      obtain ⟨fuel, rfl⟩ := Nat.exists_eq_succ_of_ne_zero
        (Nat.ne_of_gt (Nat.lt_of_lt_of_le (Nat.succ_pos _) enough))
      obtain ⟨middle, computed, turned, buckets⟩ :=
        pingIdentity_swept own placed found (foreseen item List.mem_cons_self)
      simp only [miss, Bool.false_eq_true, ↓reduceIte] at buckets
      rw [List.nodup_cons] at unique
      have still : Foreseen checkTime asks wanted (next :: rest) middle := by
        apply foreseen.still turned
        · exact fun _ member => List.mem_cons_of_mem _ member
        · rintro other member (same | ⟨_, ⟨⟩⟩)
          exact unique.1 member
      have found' : middle.table.buckets[bucketIndex]? = some (seen ++ [item] ++ next :: rest) := by
        rw [buckets, List.getElem?_set_self inside, List.append_assoc]
        rfl
      obtain ⟨after, later, others, last⟩ := ih fuel (seen ++ [item]) middle
        (placed.reduce turned.reduces) found' unique.2 still
        (by simp only [List.length_cons] at enough ⊢; omega)
        (by rw [buckets, List.length_set]; exact inside)
      simp only [visited, sweep, miss, Bool.false_eq_true, ↓reduceIte]
      exact ⟨after, pingBucket_onward found computed turned buckets later others last⟩

end Bucket

/-! ## The whole pass -/

section Pass
variable {beyond : Data} {localHashname : String} {checkTime : Nat} {mesh : Mesh}

theorem flatMap_visited_sublist {wanted : IdentityRef → Bool} (buckets : List (List IdentityRef)) :
    (buckets.flatMap (visited wanted)).Sublist buckets.flatten := by
  induction buckets with
  | nil => exact List.Sublist.refl []
  | cons bucket rest ih =>
      rw [List.flatMap_cons, List.flatten_cons]
      exact (visited_sublist bucket).append ih

/-- The identities that have their turn in the first buckets. -/
def turnsOf (checkTime : Nat) (mesh : Mesh) (count : Nat) : List IdentityRef :=
  (mesh.table.buckets.take count).flatMap
    (visited fun identity => staleLink checkTime (mesh.peers identity))

/-- The first buckets are swept, one after the other. -/
theorem pingBuckets_swept (own : IsHashname localHashname)
    (placed : Placed beyond localHashname mesh) (count : Nat)
    (bound : count ≤ mesh.table.buckets.length) :
    ∃ after, (List.range count).foldlM (fun mesh bucketIndex =>
        pingBucket beyond checkTime bucketIndex
          (mesh.table.buckets.getD bucketIndex []).length 0 mesh) mesh = .ok after ∧
      Turned (fun identity => requestsOf checkTime (mesh.peers identity))
        (turnsOf checkTime mesh count) after mesh ∧
      ∀ index : Nat, after.table.buckets[index]? = if index < count then
          mesh.table.buckets[index]?.map fun bucket =>
            (sweep (fun identity => staleLink checkTime (mesh.peers identity)) bucket).array
        else mesh.table.buckets[index]? := by
  induction count with
  | zero => exact ⟨mesh, rfl, turned_refl mesh, fun index => by simp⟩
  | succ count ih =>
      obtain ⟨middle, computed, turned, buckets⟩ := ih (Nat.le_of_succ_le bound)
      have inside : count < mesh.table.buckets.length := bound
      have found : middle.table.buckets[count]? = some ([] ++ mesh.table.buckets[count]) := by
        rw [buckets, if_neg (Nat.lt_irrefl _), List.getElem?_eq_getElem inside, List.nil_append]
      have unique : (turnsOf checkTime mesh count ++ mesh.table.buckets[count]).Nodup := by
        apply List.Nodup.sublist _ (List.Nodup.of_map _ placed.distinct)
        have parts : mesh.table.buckets.flatten = (mesh.table.buckets.take count).flatten ++
            (mesh.table.buckets[count] ++ (mesh.table.buckets.drop (count + 1)).flatten) := by
          rw [← List.flatten_cons, ← List.drop_eq_getElem_cons inside, ← List.flatten_append,
            List.take_append_drop]
        rw [parts]
        exact (flatMap_visited_sublist _).append (List.sublist_append_left _ _)
      rw [List.nodup_append] at unique
      have foreseen : Foreseen checkTime
          (fun identity => requestsOf checkTime (mesh.peers identity))
          (fun identity => staleLink checkTime (mesh.peers identity)) mesh.table.buckets[count]
          middle := by
        intro identity member
        rw [turned.peers identity fun earlier => unique.2.2 _ earlier _ member rfl]
        exact ⟨rfl, rfl⟩
      obtain ⟨after, later, others, left⟩ := pingBucket_swept own mesh.table.buckets[count]
        mesh.table.buckets[count].length [] middle (placed.reduce turned.reduces) found unique.2.1
        foreseen (Nat.le_refl _)
      refine ⟨after, ?_, ?_, ?_⟩
      · rw [List.range_succ, List.foldlM_append, computed, ok_bind, List.foldlM_cons,
          List.getD_eq_getElem?_getD, found, Option.getD_some, List.nil_append]
        rw [List.length_nil] at later
        rw [later]
        rfl
      · rw [turnsOf, List.take_succ_eq_append_getElem inside, List.flatMap_append,
          List.flatMap_singleton]
        exact others.trans turned
      · intro index
        rw [left, List.nil_append]
        rcases Nat.lt_trichotomy index count with before | rfl | behind
        · rw [List.getElem?_set_ne (Nat.ne_of_gt before), buckets, if_pos before,
            if_pos (Nat.lt_succ_of_lt before)]
        · rw [List.getElem?_set_self (List.getElem?_eq_some_iff.mp found).1,
            if_pos (Nat.lt_succ_self _), List.getElem?_eq_getElem inside]
          rfl
        · rw [List.getElem?_set_ne (Nat.ne_of_lt behind), buckets,
            if_neg (Nat.not_lt_of_gt behind), if_neg (Nat.not_lt.mpr behind)]

/-- What one identity hears of a number of turns. -/
theorem requestsTo_turns {asks : IdentityRef → List Request} (turns : List IdentityRef)
    (unique : turns.Nodup) (identity : IdentityRef) :
    requestsTo identity
        (turns.flatMap fun other => (asks other).map fun request => (other, request)) =
      if identity ∈ turns then asks identity else [] := by
  unfold requestsTo
  induction turns with
  | nil => rfl
  | cons first rest ih =>
      rw [List.nodup_cons] at unique
      rw [List.flatMap_cons, List.filter_append, List.map_append, ih unique.2, List.filter_map]
      by_cases same : first = identity
      · subst same
        simp [unique.1, Function.comp_def]
      · have other : ¬identity = first := fun equal => same equal.symm
        simp [same, other, Function.comp_def]

theorem mem_turnsOf_iff (placed : Placed beyond localHashname mesh) {index : Nat}
    {bucket : List IdentityRef} {identity : IdentityRef}
    (found : mesh.table.buckets[index]? = some bucket) (member : identity ∈ bucket) :
    identity ∈ turnsOf checkTime mesh mesh.table.buckets.length ↔
      identity ∈ visited (fun identity => staleLink checkTime (mesh.peers identity)) bucket := by
  rw [turnsOf, List.take_length, List.mem_flatMap]
  constructor
  · rintro ⟨other, inside, turn⟩
    obtain ⟨place, found'⟩ := List.getElem?_of_mem inside
    have here := placed.atHome index bucket found identity member
    have there := placed.atHome place other found' identity ((visited_sublist other).subset turn)
    rw [← there, here, found] at found'
    rw [Option.some.inj found']
    exact turn
  · exact fun turn => ⟨bucket, List.mem_of_getElem? found, turn⟩

/-- A pass that raises nothing and treats every identity as is due. -/
def PassTreats (beyond : Data) (checkTime : Nat) (mesh : Mesh) : Prop :=
  ∃ after, pingLines beyond mesh checkTime = .ok after ∧ Treats checkTime mesh after

theorem visited_iff_linked {bucket : List IdentityRef} (unique : bucket.Nodup) :
    (∀ identity ∈ bucket,
        identity ∈ visited (fun identity => staleLink checkTime (mesh.peers identity)) bucket ↔
          ¬(mesh.peers identity).linkChannel = none) ↔
      (∀ identity ∈ bucket.head?, ¬(mesh.peers identity).linkChannel = none) ∧
        bucket.IsChain fun identity next =>
          (mesh.peers next).linkChannel = none ↔
            staleLink checkTime (mesh.peers identity) = true :=
  visited_iff_idle (fun _ old => linked_of_stale old) bucket unique

theorem orderly_iff {bucket : List IdentityRef} (unique : bucket.Nodup) :
    Orderly checkTime mesh.peers bucket ↔ ∀ identity ∈ bucket,
      Due checkTime (mesh.peers identity)
        (if identity ∈ visited (fun identity => staleLink checkTime (mesh.peers identity)) bucket
          then requestsOf checkTime (mesh.peers identity) else []) := by
  constructor
  · rintro ⟨first, alternate, lines⟩ identity member
    have turn := (visited_iff_linked unique).mpr ⟨first, alternate⟩ identity member
    split
    case isTrue inTurn => exact due_requestsOf_iff.mpr ⟨turn.mp inTurn, lines identity member⟩
    case isFalse passed => exact due_nothing_iff.mpr (not_not.mp (mt turn.mpr passed))
  · intro all
    have turn : ∀ identity ∈ bucket,
        identity ∈ visited (fun identity => staleLink checkTime (mesh.peers identity)) bucket ↔
          ¬(mesh.peers identity).linkChannel = none := by
      intro identity member
      have due := all identity member
      split at due
      case isTrue inTurn => exact iff_of_true inTurn (due_requestsOf_iff.mp due).1
      case isFalse passed => exact iff_of_false passed (not_not_intro (due_nothing_iff.mp due))
    obtain ⟨first, alternate⟩ := (visited_iff_linked unique).mp turn
    refine ⟨first, alternate, fun identity member linkChannel linked => ?_⟩
    have due := all identity member
    have inTurn := (turn identity member).mpr (by rw [linked]; exact Option.some_ne_none _)
    rw [if_pos inTurn] at due
    exact (due_requestsOf_iff.mp due).2 linkChannel linked

/-- What is asked in a whole pass. -/
def passRequests (checkTime : Nat) (mesh : Mesh) : List (IdentityRef × Request) :=
  (turnsOf checkTime mesh mesh.table.buckets.length).flatMap fun identity =>
    (requestsOf checkTime (mesh.peers identity)).map fun request => (identity, request)

theorem turnsOf_sublist : (turnsOf checkTime mesh mesh.table.buckets.length).Sublist
    mesh.table.buckets.flatten := by
  rw [turnsOf, List.take_length]
  exact flatMap_visited_sublist _

theorem requestsTo_pass (placed : Placed beyond localHashname mesh) (identity : IdentityRef) :
    requestsTo identity (passRequests checkTime mesh) =
      if identity ∈ turnsOf checkTime mesh mesh.table.buckets.length then
        requestsOf checkTime (mesh.peers identity) else [] :=
  @requestsTo_turns (fun identity => requestsOf checkTime (mesh.peers identity)) _
    ((List.Nodup.of_map _ placed.distinct).sublist turnsOf_sublist) identity

/-- A bucket is orderly if each identity of it is asked what is due. -/
theorem orderly_iff_due (placed : Placed beyond localHashname mesh) {index : Nat}
    {bucket : List IdentityRef} (found : mesh.table.buckets[index]? = some bucket) :
    Orderly checkTime mesh.peers bucket ↔ ∀ identity ∈ bucket,
      Due checkTime (mesh.peers identity)
        (requestsTo identity (passRequests checkTime mesh)) := by
  have apart := (List.nodup_flatten.mp (List.Nodup.of_map _ placed.distinct)).1
  rw [orderly_iff (apart bucket (List.mem_of_getElem? found))]
  apply forall₂_congr
  intro identity member
  rw [requestsTo_pass placed, if_congr (mem_turnsOf_iff placed found member) rfl rfl]

/-- Of an orderly bucket exactly the stale identities are taken out. -/
theorem orderly_swept {bucket : List IdentityRef} (unique : bucket.Nodup)
    (orderly : Orderly checkTime mesh.peers bucket) :
    (sweep (fun identity => staleLink checkTime (mesh.peers identity)) bucket).array =
      bucket.filter fun identity => !staleLink checkTime (mesh.peers identity) := by
  have turn := (visited_iff_linked unique).mpr ⟨orderly.first, orderly.alternate⟩
  apply sweep_of_visited bucket unique
  exact fun identity member old => (turn identity member).mpr (linked_of_stale old)

/-- A pass treats every identity of a table as is due exactly when every bucket is orderly. -/
theorem ping_pass_treats_iff (own : IsHashname localHashname)
    (placed : Placed beyond localHashname mesh) :
    PassTreats beyond checkTime mesh ↔
      ∀ bucket ∈ mesh.table.buckets, Orderly checkTime mesh.peers bucket := by
  obtain ⟨after, computed, turned, buckets⟩ := pingBuckets_swept own placed _ (Nat.le_refl _)
  have asked : after.asked = mesh.asked ++ passRequests checkTime mesh := turned.asked
  constructor
  · rintro ⟨after', computed', treats⟩ bucket inside
    obtain ⟨index, found⟩ := List.getElem?_of_mem inside
    cases computed.symm.trans computed'
    obtain ⟨requests, told, due, _⟩ := treats.asked
    rw [asked, List.append_cancel_left_eq] at told
    rw [orderly_iff_due placed found, told]
    exact fun identity member => due identity (mem_flatten_of_found found member)
  · intro orderly
    refine ⟨after, computed, ?_, _, asked, ?_, ?_⟩
    · intro index
      rw [buckets]
      cases found : mesh.table.buckets[index]? with
      | none => simp
      | some bucket =>
          have inside := List.mem_of_getElem? found
          have apart := (List.nodup_flatten.mp (List.Nodup.of_map _ placed.distinct)).1
          rw [if_pos (List.getElem?_eq_some_iff.mp found).1, Option.map_some, Option.map_some,
            orderly_swept (apart bucket inside) (orderly bucket inside)]
    · intro identity member
      obtain ⟨bucket, inside, member⟩ := List.mem_flatten.mp member
      obtain ⟨index, found⟩ := List.getElem?_of_mem inside
      exact (orderly_iff_due placed found).mp (orderly bucket inside) identity member
    · intro identity absent
      rw [requestsTo_pass placed, if_neg fun turn => absent (turnsOf_sublist.subset turn)]

end Pass

/-- Two peers of one bucket, with hashnames that differ in their last digit. -/
def neighbours : Mesh where
  table := THMeshBuckets.init (some originHashname)
  peers := fun identity =>
    withHashname (if identity = 1 then farHashname
      else "f7689fe81620568fc72030e7946a8ad86b4a700a190760b6bec6074a9661284c")
  asked := []

/-- Both are added and linked, and since then only the second was heard of. -/
def neighbourRun : List Event :=
  [.addIdentity 1, .addIdentity 2,
    .changePeer 1 { withHashname "" with linkChannel := some firstLinkChannel },
    .changePeer 2 { withHashname "" with
      linkChannel := some { firstLinkChannel with ref := 1, lastInActivity := 40 }
      hasActivePath := true }]

theorem stale_alone_is_treated :
    PassTreats [] 60 (run (step [] stableSort) neighbours
      [.addIdentity 1, neighbourRun[2]]) := by
  have start : Reached [] originHashname neighbours neighbours := ⟨placed_init, rfl⟩
  have added := @Reached.step [] stableSort _ _ _ originHashname_is (.addIdentity 1)
    (by intro identity same; cases same; exact farHashname_is) start
  have linked := @Reached.step [] stableSort _ _ _ originHashname_is neighbourRun[2]
    (by intro identity same; cases same) added
  have buckets : ∀ bucket ∈ (run (step [] stableSort) neighbours
      [.addIdentity 1, neighbourRun[2]]).table.buckets, bucket = [] ∨ bucket = [1] := by
    decide +kernel
  have linkedPeer : ((run (step [] stableSort) neighbours
      [.addIdentity 1, neighbourRun[2]]).peers 1).linkChannel = some firstLinkChannel := rfl
  apply (ping_pass_treats_iff originHashname_is linked.placed).mpr
  intro bucket inside
  rcases buckets bucket inside with rfl | rfl
  · exact ⟨fun _ first => (by cases first), List.isChain_nil, List.forall_mem_nil _⟩
  · refine ⟨?_, List.isChain_singleton 1, ?_⟩
    · rintro identity ⟨⟩ unlinked
      cases linkedPeer.symm.trans unlinked
    · intro identity member linkChannel found fresh
      rw [List.mem_singleton.mp member] at found
      cases linkedPeer.symm.trans found
      cases fresh

theorem neighbour_passed_by :
    ¬PassTreats [] 60 (run (step [] stableSort) neighbours neighbourRun) := by
  rintro ⟨after, computed, treats⟩
  have asked : ((pingLines [] (run (step [] stableSort) neighbours neighbourRun) 60).map
      Mesh.asked).toOption = some [(1, .reset)] := by
    decide +kernel
  have before : (run (step [] stableSort) neighbours neighbourRun).asked = [] ∧
      2 ∈ (run (step [] stableSort) neighbours neighbourRun).table.buckets.flatten ∧
      ((run (step [] stableSort) neighbours neighbourRun).peers 2).linkChannel.isSome := by
    decide +kernel
  obtain ⟨requests, told, due, _⟩ := treats.asked
  rw [computed] at asked
  rw [before.1, List.nil_append] at told
  have only : requests = [(1, .reset)] := told.symm.trans (Option.some.inj asked)
  have passed := due_nothing_iff.mp (only ▸ due 2 before.2.1)
  rw [passed] at before
  cases before.2.2

end Telehash.PingPass
