import Telehash.Identity
import Telehash.LocalPaths

/-!
The paths of THIdentity.m as the objects they are. A path stands in the list of its
identity and may be its active path; its priority and its flag change in place.
-/

namespace Telehash.PathObjects
open Association Foundation SeeStrings LocalPaths
open Identity (IdentityRef)

abbrev PathRef := Nat

structure PathObject extends THIPV4Path where
  priority : Nat
  available : Bool

/-- What an identity keeps of its paths. -/
structure Ways where
  isLocal : Bool
  availablePaths : List PathRef
  activePath : Option PathRef

/-- The path objects of a switch, the ways of its identities, and its own identity. -/
structure PathStore where
  objects : PathRef → PathObject
  nextPath : PathRef
  ways : IdentityRef → Ways
  identity : IdentityRef

def Ways.none : Ways := ⟨false, [], Option.none⟩

namespace PathStore

def path (store : PathStore) (ref : PathRef) : THIPV4Path := (store.objects ref).toTHIPV4Path

def updateWays (store : PathStore) (identity : IdentityRef) (change : Ways → Ways) : PathStore :=
  { store with ways := Function.update store.ways identity (change (store.ways identity)) }

def updatePath (store : PathStore) (ref : PathRef) (change : PathObject → PathObject) : PathStore :=
  { store with objects := Function.update store.objects ref (change (store.objects ref)) }

def makePath (store : PathStore) (path : THIPV4Path) (available : Bool) : PathStore :=
  { store with
    objects := Function.update store.objects store.nextPath ⟨path, 0, available⟩
    nextPath := store.nextPath + 1 }

abbrev allocPath (store : PathStore) (path : THIPV4Path) : PathStore := store.makePath path false

/-- The priority of the active path; that of nil is 0. -/
def activePriority (store : PathStore) (identity : IdentityRef) : Nat :=
  ((store.ways identity).activePath.map fun ref => (store.objects ref).priority).getD 0

end PathStore

section Source
variable (order : ByteOrder)

/-- `pathMatching:`, for information that is looked for by `wanted`. -/
def pathMatching (store : PathStore) (wanted : PathInformation → Bool) :
    List PathRef → Except Fault (Option PathRef)
  | [] => .ok none
  | ref :: rest => do
      let known ← information order (store.path ref)
      if wanted known then return some ref else pathMatching store wanted rest

-- The switch's own paths are compared with the new one whether or not it is one of them.
def addPath (store : PathStore) (identity : IdentityRef) (path : Option PathRef) :
    Except Fault PathStore := do
  let pathInfo ← path.mapM fun ref => information order (store.path ref)
  match ← pathMatching order store (fun known => some known = pathInfo)
      (store.ways identity).availablePaths with
  | some _ => return store
  | none =>
      match path with
      | none => .error .nilArgument
      | some new =>
          let switchPaths := (store.ways store.identity).availablePaths
          return store.updateWays identity fun ways => { ways with
            isLocal := ways.isLocal ||
              switchPaths.any fun own => pathIsLocalTo (store.path own) (some (store.path new))
            availablePaths := ways.availablePaths ++ [new] }

/-- A path that `checkPriorityPath:` looks at counts one for being an IP path, and one
more for being local to a local identity. -/
def rank (store : PathStore) (identity : IdentityRef) (ref : PathRef) : Nat :=
  (if (store.ways identity).isLocal && isLocal order (store.path ref) then 1 else 0) + 1

def checkPriorityPath (store : PathStore) (identity : IdentityRef) (ref : PathRef) : PathStore :=
  let ranked := store.updatePath ref fun path =>
    { path with priority := rank order store identity ref }
  if ranked.activePriority identity < (ranked.objects ref).priority then
    ranked.updateWays identity fun ways => { ways with activePath := some ref }
  else ranked

/-- The path an open came on becomes the active one, in the object already known. -/
def openedOver (store : PathStore) (identity : IdentityRef) (returnPath : PathRef) :
    Except Fault PathStore := do
  let pathInfo ← information order (store.path returnPath)
  match ← pathMatching order store (fun known => some known = some pathInfo)
      (store.ways identity).availablePaths with
  | some path => return store.updateWays identity fun ways => { ways with activePath := some path }
  | none =>
      let added ← addPath order store identity (some returnPath)
      return added.updateWays identity fun ways => { ways with activePath := some returnPath }

def forgetPaths (store : PathStore) (identity : IdentityRef) : PathStore :=
  store.updateWays identity fun ways => { ways with availablePaths := [], activePath := none }

end Source

/-! ## What each operation does -/

section Operations
variable {order : ByteOrder} {store after : PathStore} {identity : IdentityRef}

/-- The identity as a list of paths, without the objects. -/
def known (store : PathStore) (identity : IdentityRef) : KnownPaths :=
  ⟨(store.ways identity).isLocal, (store.ways identity).availablePaths.map store.path⟩

theorem pathMatching_some {wanted : PathInformation → Bool} {refs : List PathRef} {found : PathRef}
    (matching : pathMatching order store wanted refs = .ok (some found)) :
    found ∈ refs ∧
      ∃ info, information order (store.path found) = .ok info ∧ wanted info = true := by
  induction refs with
  | nil => cases matching
  | cons ref rest ih =>
      obtain ⟨info, read, matching⟩ := (bind_ok_iff _ _ _).mp matching
      split at matching
      · rename_i hit
        cases matching
        exact ⟨List.mem_cons_self, info, read, hit⟩
      · obtain ⟨member, known⟩ := ih matching
        exact ⟨List.mem_cons_of_mem _ member, known⟩

theorem pathMatching_none {wanted : PathInformation → Bool} {refs : List PathRef}
    (matching : pathMatching order store wanted refs = .ok none) :
    ∀ ref ∈ refs, ∃ info, information order (store.path ref) = .ok info ∧ wanted info = false := by
  induction refs with
  | nil => exact List.forall_mem_nil _
  | cons ref rest ih =>
      obtain ⟨info, read, matching⟩ := (bind_ok_iff _ _ _).mp matching
      split at matching
      · cases matching
      · rename_i miss
        rw [List.forall_mem_cons]
        exact ⟨⟨info, read, Bool.eq_false_iff.mpr miss⟩, ih matching⟩

/-- The new path stands behind those that were there, all of them different. -/
structure Grown (order : ByteOrder) (store : PathStore) (identity : IdentityRef) (new : PathRef)
    (after : PathStore) : Prop where
  readable : ∃ info, information order (store.path new) = .ok info
  different : ∀ ref ∈ (store.ways identity).availablePaths,
    information order (store.path ref) ≠ information order (store.path new)
  grows : ∃ nearby : Bool, after = store.updateWays identity fun ways => { ways with
    isLocal := ways.isLocal || nearby
    availablePaths := ways.availablePaths ++ [new] }

/-- The list has a path with the information of this one. -/
def Present (order : ByteOrder) (store : PathStore) (identity : IdentityRef) (ref : PathRef) :
    Prop :=
  ∃ info found, information order (store.path ref) = .ok info ∧
    pathMatching order store (fun known => some known = some info)
      (store.ways identity).availablePaths = .ok (some found)

theorem addPath_cases {path : Option PathRef}
    (adding : addPath order store identity path = .ok after) :
    ∃ new, path = some new ∧
      (after = store ∧ Present order store identity new ∨
        Grown order store identity new after) := by
  unfold addPath at adding
  obtain ⟨pathInfo, read, adding⟩ := (bind_ok_iff _ _ _).mp adding
  obtain ⟨found, matching, adding⟩ := (bind_ok_iff _ _ _).mp adding
  cases path with
  | none =>
      cases read
      cases found with
      | none => cases adding
      | some ref =>
          obtain ⟨_, info, _, hit⟩ := pathMatching_some matching
          simp at hit
  | some new =>
      rw [Option.mapM_some] at read
      obtain ⟨info, told, read⟩ := (bind_ok_iff _ _ _).mp read
      cases read
      cases found with
      | some ref =>
          exact ⟨new, rfl, Or.inl ⟨(Except.ok.inj adding).symm, info, ref, told, matching⟩⟩
      | none =>
          cases adding
          refine ⟨new, rfl, Or.inr ⟨⟨info, told⟩, ?_, _, rfl⟩⟩
          intro ref member same
          obtain ⟨other, readOther, miss⟩ := pathMatching_none matching ref member
          rw [told, readOther] at same
          cases same
          simp at miss

/-- The active path is one that was there before or has just been put there. -/
theorem openedOver_cases {returnPath : PathRef}
    (opening : openedOver order store identity returnPath = .ok after) :
    ∃ added active, (added = store ∧ active ∈ (store.ways identity).availablePaths ∨
        Grown order store identity returnPath added ∧ active = returnPath) ∧
      after = added.updateWays identity fun ways => { ways with activePath := some active } := by
  unfold openedOver at opening
  obtain ⟨pathInfo, read, opening⟩ := (bind_ok_iff _ _ _).mp opening
  obtain ⟨found, matching, opening⟩ := (bind_ok_iff _ _ _).mp opening
  cases found with
  | some ref =>
      cases opening
      exact ⟨store, ref, Or.inl ⟨rfl, (pathMatching_some matching).1⟩, rfl⟩
  | none =>
      obtain ⟨added, adding, opening⟩ := (bind_ok_iff _ _ _).mp opening
      cases opening
      refine ⟨added, returnPath, Or.inr ⟨?_, rfl⟩, rfl⟩
      obtain ⟨new, same, ⟨_, info, ref, told, present⟩ | grown⟩ := addPath_cases adding
      · cases same
        rw [read] at told
        cases told
        rw [matching] at present
        cases present
      · cases same
        exact grown

end Operations

/-! ## Ways in order -/

/-- Every list holds objects of its own, no two of them with the same information; the
active path is on the list; and no path has a priority it could not be given now. -/
structure InOrder (order : ByteOrder) (store : PathStore) : Prop where
  listed : ∀ identity, ∀ ref ∈ (store.ways identity).availablePaths, ref < store.nextPath
  readable : ∀ identity, ∀ ref ∈ (store.ways identity).availablePaths,
    ∃ info, information order (store.path ref) = .ok info
  different : ∀ identity, (store.ways identity).availablePaths.Pairwise fun one other =>
    information order (store.path one) ≠ information order (store.path other)
  active : ∀ identity ref, (store.ways identity).activePath = some ref →
    ref ∈ (store.ways identity).availablePaths
  apart : ∀ one other, one ≠ other →
    (store.ways one).availablePaths.Disjoint (store.ways other).availablePaths
  bounded : ∀ identity, ∀ ref ∈ (store.ways identity).availablePaths,
    (store.objects ref).priority ≤ rank order store identity ref

/-- An object that no identity has, and that no one has ranked. -/
structure Unused (store : PathStore) (ref : PathRef) : Prop where
  made : ref < store.nextPath
  unlisted : ∀ identity, ref ∉ (store.ways identity).availablePaths
  unranked : (store.objects ref).priority = 0

section Keeping
variable {order : ByteOrder} {store after : PathStore} {identity : IdentityRef} {ref : PathRef}

@[simp] theorem ways_updateWays_same (change : Ways → Ways) :
    (store.updateWays identity change).ways identity = change (store.ways identity) := by
  simp [PathStore.updateWays]

theorem ways_updateWays_other {other : IdentityRef} (change : Ways → Ways)
    (different : other ≠ identity) :
    (store.updateWays identity change).ways other = store.ways other := by
  simp [PathStore.updateWays, different]

@[simp] theorem path_updateWays (change : Ways → Ways) :
    (store.updateWays identity change).path = store.path := rfl

/-- The flags of a path may change, not where it leads. -/
theorem path_updatePath {change : PathObject → PathObject}
    (kept : ∀ object, (change object).toTHIPV4Path = object.toTHIPV4Path) :
    (store.updatePath ref change).path = store.path := by
  funext other
  by_cases same : other = ref
  · subst same
    simp [PathStore.path, PathStore.updatePath, kept]
  · simp [PathStore.path, PathStore.updatePath, same]

theorem path_makePath {path : THIPV4Path} {available : Bool} (inside : ref < store.nextPath) :
    (store.makePath path available).path ref = store.path ref := by
  simp [PathStore.path, PathStore.makePath, Nat.ne_of_lt inside]

@[simp] theorem path_makePath_same {path : THIPV4Path} {available : Bool} :
    (store.makePath path available).path store.nextPath = path := by
  simp [PathStore.path, PathStore.makePath]

theorem objects_makePath {path : THIPV4Path} {available : Bool} (inside : ref < store.nextPath) :
    (store.makePath path available).objects ref = store.objects ref := by
  simp [PathStore.makePath, Nat.ne_of_lt inside]

theorem rank_le_two : rank order store identity ref ≤ 2 := by
  unfold rank
  split <;> omega

theorem inOrder_makePath (inOrder : InOrder order store) (path : THIPV4Path) (available : Bool) :
    InOrder order (store.makePath path available) where
  listed identity ref member := Nat.lt_succ_of_lt (inOrder.listed identity ref member)
  readable identity ref member := by
    rw [path_makePath (inOrder.listed identity ref member)]
    exact inOrder.readable identity ref member
  different identity := by
    refine (inOrder.different identity).imp_of_mem ?_
    intro one other memberOne memberOther different
    rwa [path_makePath (inOrder.listed identity one memberOne),
      path_makePath (inOrder.listed identity other memberOther)]
  active := inOrder.active
  apart := inOrder.apart
  bounded identity ref member := by
    have inside := inOrder.listed identity ref member
    have same : rank order (store.makePath path available) identity ref =
        rank order store identity ref := by
      simp only [rank, path_makePath inside]
      rfl
    rw [objects_makePath inside, same]
    exact inOrder.bounded identity ref member

theorem unused_makePath (inOrder : InOrder order store) (path : THIPV4Path) (available : Bool) :
    Unused (store.makePath path available) store.nextPath where
  made := Nat.lt_succ_self _
  unlisted identity member := Nat.lt_irrefl _ (inOrder.listed identity _ member)
  unranked := by simp [PathStore.makePath]

theorem inOrder_updateWays (inOrder : InOrder order store) {change : Ways → Ways}
    (listed : (change (store.ways identity)).availablePaths =
      (store.ways identity).availablePaths)
    (nearby : (store.ways identity).isLocal = true →
      (change (store.ways identity)).isLocal = true)
    (active : ∀ ref, (change (store.ways identity)).activePath = some ref →
      ref ∈ (store.ways identity).availablePaths) :
    InOrder order (store.updateWays identity change) := by
  have sameList : ∀ other, ((store.updateWays identity change).ways other).availablePaths =
      (store.ways other).availablePaths := by
    intro other
    by_cases same : other = identity
    · rw [same, ways_updateWays_same, listed]
    · rw [ways_updateWays_other _ same]
  constructor
  case listed =>
    intro other ref member
    rw [sameList] at member
    exact inOrder.listed other ref member
  case readable =>
    intro other ref member
    rw [sameList] at member
    exact inOrder.readable other ref member
  case different =>
    intro other
    rw [sameList]
    exact inOrder.different other
  case active =>
    intro other ref held
    rw [sameList]
    by_cases same : other = identity
    · rw [same, ways_updateWays_same] at held
      exact same ▸ active ref held
    · rw [ways_updateWays_other _ same] at held
      exact inOrder.active other ref held
  case apart =>
    intro one other different
    rw [sameList, sameList]
    exact inOrder.apart one other different
  case bounded =>
    intro other ref member
    rw [sameList] at member
    have before := inOrder.bounded other ref member
    refine Nat.le_trans before ?_
    by_cases same : other = identity
    · subst same
      simp only [rank, ways_updateWays_same, path_updateWays]
      cases was : (store.ways other).isLocal with
      | false => simp
      | true => simp [nearby was]
    · simp only [rank, ways_updateWays_other _ same, path_updateWays]
      exact Nat.le_refl _

theorem inOrder_updatePath (inOrder : InOrder order store) {change : PathObject → PathObject}
    (kept : ∀ object, (change object).toTHIPV4Path = object.toTHIPV4Path)
    (fits : ∀ identity, ref ∈ (store.ways identity).availablePaths →
      (change (store.objects ref)).priority ≤ rank order store identity ref) :
    InOrder order (store.updatePath ref change) where
  listed := inOrder.listed
  readable := by
    rw [path_updatePath kept]
    exact inOrder.readable
  different := by
    rw [path_updatePath kept]
    exact inOrder.different
  active := inOrder.active
  apart := inOrder.apart
  bounded identity other member := by
    have same : rank order (store.updatePath ref change) identity other =
        rank order store identity other := by
      simp only [rank, path_updatePath kept]
      rfl
    rw [same]
    by_cases changed : other = ref
    · subst changed
      simpa [PathStore.updatePath] using fits identity member
    · simpa [PathStore.updatePath, changed] using inOrder.bounded identity other member

theorem inOrder_flagged (inOrder : InOrder order store) (ref : PathRef) :
    InOrder order (store.updatePath ref fun path => { path with available := true }) :=
  inOrder_updatePath inOrder (fun _ => rfl) fun identity member =>
    inOrder.bounded identity ref member

/-- What changes when a path is added, and what does not. -/
theorem grown_ways {new : PathRef} (grown : Grown order store identity new after) :
    (after.ways identity).availablePaths = (store.ways identity).availablePaths ++ [new] ∧
      (after.ways identity).activePath = (store.ways identity).activePath ∧
      ((store.ways identity).isLocal = true → (after.ways identity).isLocal = true) ∧
      (∀ other, other ≠ identity → after.ways other = store.ways other) ∧
      after.objects = store.objects ∧ after.nextPath = store.nextPath := by
  obtain ⟨nearby, rfl⟩ := grown.grows
  rw [ways_updateWays_same]
  refine ⟨rfl, rfl, ?_, fun other => ways_updateWays_other _, rfl, rfl⟩
  intro was
  simp [was]

theorem rank_mono {before : PathStore} {one other : IdentityRef}
    (path : after.path = before.path)
    (nearby : (before.ways one).isLocal = true → (after.ways other).isLocal = true) :
    rank order before one ref ≤ rank order after other ref := by
  unfold rank
  rw [path]
  cases was : (before.ways one).isLocal with
  | false => simp
  | true => simp [nearby was]

theorem inOrder_grown {new : PathRef} (inOrder : InOrder order store) (unused : Unused store new)
    (grown : Grown order store identity new after) : InOrder order after := by
  obtain ⟨list, active, nearby, others, objects, next⟩ := grown_ways grown
  have path : after.path = store.path := by
    funext ref
    simp only [PathStore.path, objects]
  have members : ∀ other ref, ref ∈ (after.ways other).availablePaths →
      ref ∈ (store.ways other).availablePaths ∨ (ref = new ∧ other = identity) := by
    intro other ref member
    by_cases same : other = identity
    · subst same
      rw [list, List.mem_append, List.mem_singleton] at member
      exact member.imp_right fun last => ⟨last, rfl⟩
    · rw [others other same] at member
      exact Or.inl member
  constructor
  case listed =>
    intro other ref member
    rw [next]
    rcases members other ref member with old | ⟨rfl, _⟩
    · exact inOrder.listed other ref old
    · exact unused.made
  case readable =>
    intro other ref member
    rw [path]
    rcases members other ref member with old | ⟨rfl, _⟩
    · exact inOrder.readable other ref old
    · exact grown.readable
  case different =>
    intro other
    rw [path]
    by_cases same : other = identity
    · subst same
      rw [list]
      refine List.pairwise_append.mpr ⟨inOrder.different other, List.pairwise_singleton _ _, ?_⟩
      intro ref member last isLast
      rw [List.mem_singleton.mp isLast]
      exact grown.different ref member
    · rw [others other same]
      exact inOrder.different other
  case active =>
    intro other ref held
    by_cases same : other = identity
    · subst same
      rw [list]
      exact List.mem_append_left _ (inOrder.active other ref (active ▸ held))
    · rw [others other same] at held ⊢
      exact inOrder.active other ref held
  case apart =>
    intro one other different ref memberOne memberOther
    rcases members one ref memberOne with oldOne | ⟨rfl, rfl⟩
    · rcases members other ref memberOther with oldOther | ⟨rfl, rfl⟩
      · exact inOrder.apart one other different oldOne oldOther
      · exact unused.unlisted one oldOne
    · rcases members other ref memberOther with oldOther | ⟨_, rfl⟩
      · exact unused.unlisted other oldOther
      · exact different rfl
  case bounded =>
    intro other ref member
    rw [objects]
    rcases members other ref member with old | ⟨rfl, _⟩
    · refine Nat.le_trans (inOrder.bounded other ref old) (rank_mono path ?_)
      by_cases same : other = identity
      · exact same ▸ nearby
      · rw [others other same]
        exact id
    · rw [unused.unranked]
      exact Nat.zero_le _

theorem inOrder_checkPriorityPath (inOrder : InOrder order store)
    (member : ref ∈ (store.ways identity).availablePaths) :
    InOrder order (checkPriorityPath order store identity ref) := by
  have ranked : InOrder order (store.updatePath ref fun path =>
      { path with priority := rank order store identity ref }) := by
    refine inOrder_updatePath inOrder (fun _ => rfl) fun other listed => ?_
    by_cases same : other = identity
    · rw [same]
    · exact absurd member (inOrder.apart other identity same listed)
  unfold checkPriorityPath
  dsimp only
  split
  · refine inOrder_updateWays ranked rfl id ?_
    rintro other ⟨⟩
    exact member
  · exact ranked

theorem inOrder_forgetPaths (inOrder : InOrder order store) (identity : IdentityRef) :
    InOrder order (forgetPaths store identity) := by
  have sublist : ∀ other, ((forgetPaths store identity).ways other).availablePaths =
      if other = identity then [] else (store.ways other).availablePaths := by
    intro other
    by_cases same : other = identity
    · rw [if_pos same, same]
      simp [forgetPaths]
    · rw [if_neg same, forgetPaths, ways_updateWays_other _ same]
  have old : ∀ other ref, ref ∈ ((forgetPaths store identity).ways other).availablePaths →
      other ≠ identity ∧ ref ∈ (store.ways other).availablePaths := by
    intro other ref member
    rw [sublist] at member
    split at member
    · cases member
    · rename_i different
      exact ⟨different, member⟩
  constructor
  case listed => exact fun other ref member => inOrder.listed other ref (old other ref member).2
  case readable =>
    exact fun other ref member => inOrder.readable other ref (old other ref member).2
  case different =>
    intro other
    rw [sublist]
    split
    · exact List.Pairwise.nil
    · exact inOrder.different other
  case active =>
    intro other ref held
    by_cases same : other = identity
    · subst same
      simp [forgetPaths] at held
    · rw [forgetPaths, ways_updateWays_other _ same] at held ⊢
      exact inOrder.active other ref held
  case apart =>
    intro one other different ref memberOne memberOther
    exact inOrder.apart one other different (old one ref memberOne).2 (old other ref memberOther).2
  case bounded =>
    intro other ref member
    obtain ⟨different, before⟩ := old other ref member
    refine Nat.le_trans (inOrder.bounded other ref before) (rank_mono rfl ?_)
    rw [forgetPaths, ways_updateWays_other _ different]
    exact id

end Keeping

end Telehash.PathObjects
