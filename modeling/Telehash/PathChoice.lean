import Telehash.PathNegotiation

/-!
Which path of an identity is the active one. Over any run of events the ways of all
identities stay in order; behind an offer, and as long as no open arrives over a path,
the active path is one of the best that have answered; between two offers a local path
that has answered leaves only local ones active, and the active path changes at most
twice.
-/

namespace Telehash.PathChoice
open Association Foundation Packet SeeStrings LocalPaths PathObjects PathNegotiation Runs
open Identity (IdentityRef)

section Order
variable {order : ByteOrder} {allowed : Kind → Prop} {store after : PathStore}

theorem inOrder_move (inOrder : InOrder order store) (move : Move order allowed store after) :
    InOrder order after := by
  cases move with
  | made path available => exact inOrder_makePath inOrder path available
  | added may grown =>
      exact inOrder_grown (inOrder_makePath inOrder _ _) (unused_makePath inOrder _ _) grown
  | opened may listed =>
      refine inOrder_updateWays inOrder rfl id ?_
      rintro ref ⟨⟩
      exact listed
  | unranked may listed => exact inOrder_updatePath inOrder (fun _ => rfl) fun _ _ => Nat.zero_le _
  | answered may listed =>
      rename_i answering ref
      have flagged := inOrder_flagged inOrder ref
      exact inOrder_checkPriorityPath flagged listed
  | cleared may => exact inOrder_forgetPaths inOrder _

theorem inOrder_moves (inOrder : InOrder order store) (moves : Moves order allowed store after) :
    InOrder order after := by
  induction moves with
  | refl => exact inOrder
  | tail _ move ih => exact inOrder_move ih move

end Order

/-- A switch that knows no paths yet, not even its own. -/
def start (identity : IdentityRef) : PathStore :=
  ⟨fun _ => ⟨⟨⟨0, 0, ⟨0, 0, 0, 0⟩⟩, 0⟩, 0, false⟩, 0, fun _ => .none, identity⟩

theorem inOrder_start (order : ByteOrder) (identity : IdentityRef) :
    InOrder order (start identity) where
  listed _ := List.forall_mem_nil _
  readable _ := List.forall_mem_nil _
  different _ := List.Pairwise.nil
  active _ _ held := nomatch held
  apart _ _ _ := List.disjoint_nil_left _
  bounded _ := List.forall_mem_nil _

section Runs
variable (order : ByteOrder) (stack : SockaddrIn) (transport : Option Nat)

/-- Whatever offers, answers, opens, connects and resets come, in whatever order: no
identity lists two paths with the same information or a path of another identity, and
its active path is on its list. -/
theorem ways_stay_in_order (identity : IdentityRef) (events : List Event) :
    InOrder order (run (step order stack transport) (start identity) events) := by
  have kept : ∀ store event, True → InOrder order store →
      InOrder order (step order stack transport store event) :=
    fun store event _ inOrder => inOrder_moves inOrder (moves_step event)
  exact run_invariant kept (start identity) events (inOrder_start order identity)
    (along_true (start identity) events)

end Runs

/-! ## The best path -/

/-- No path that is available has a higher priority than the active one. -/
def Best (store : PathStore) (identity : IdentityRef) : Prop :=
  ∀ ref ∈ (store.ways identity).availablePaths,
    (store.objects ref).priority ≤ store.activePriority identity

/-- Nothing of these kinds gives the identity an active path unasked, or takes
priorities away. -/
def Quiet (identity : IdentityRef) (allowed : Kind → Prop) : Prop :=
  ¬ allowed (.opened identity) ∧ ¬ allowed (.unranked identity)

section Choice
variable {order : ByteOrder} {allowed : Kind → Prop} {store after : PathStore}
  {identity : IdentityRef}

theorem activePriority_congr
    (active : (after.ways identity).activePath = (store.ways identity).activePath)
    (objects : ∀ ref, (store.ways identity).activePath = some ref →
      (after.objects ref).priority = (store.objects ref).priority) :
    after.activePriority identity = store.activePriority identity := by
  unfold PathStore.activePriority
  rw [active]
  cases held : (store.ways identity).activePath with
  | none => rfl
  | some ref => exact objects ref held

/-- A change that keeps the list, the active path and the priorities of an identity. -/
structure Spares (store : PathStore) (identity : IdentityRef) (after : PathStore) : Prop where
  ways : (after.ways identity).availablePaths = (store.ways identity).availablePaths
  active : (after.ways identity).activePath = (store.ways identity).activePath
  priorities : ∀ ref ∈ (store.ways identity).availablePaths,
    (after.objects ref).priority = (store.objects ref).priority

theorem spares_activePriority (inOrder : InOrder order store)
    (spares : Spares store identity after) :
    after.activePriority identity = store.activePriority identity :=
  activePriority_congr spares.active fun ref held =>
    spares.priorities ref (inOrder.active identity ref held)

theorem best_spares (inOrder : InOrder order store) (spares : Spares store identity after)
    (best : Best store identity) : Best after identity := by
  intro ref member
  rw [spares.ways] at member
  rw [spares.priorities ref member, spares_activePriority inOrder spares]
  exact best ref member

theorem spares_makePath (inOrder : InOrder order store) (path : THIPV4Path) (available : Bool) :
    Spares store identity (store.makePath path available) where
  ways := rfl
  active := rfl
  priorities ref member := by rw [objects_makePath (inOrder.listed identity ref member)]

theorem spares_updatePath {ref : PathRef} (change : PathObject → PathObject)
    (unlisted : ref ∉ (store.ways identity).availablePaths) :
    Spares store identity (store.updatePath ref change) where
  ways := rfl
  active := rfl
  priorities other member := by
    have different : other ≠ ref := fun same => unlisted (same ▸ member)
    simp [PathStore.updatePath, different]

theorem spares_flagged (ref : PathRef) :
    Spares store identity (store.updatePath ref fun path => { path with available := true }) where
  ways := rfl
  active := rfl
  priorities other _ := by
    by_cases same : other = ref
    · subst same
      simp [PathStore.updatePath]
    · simp [PathStore.updatePath, same]

theorem spares_updateWays {other : IdentityRef} (change : Ways → Ways)
    (different : identity ≠ other) : Spares store identity (store.updateWays other change) where
  ways := by rw [ways_updateWays_other _ different]
  active := by rw [ways_updateWays_other _ different]
  priorities _ _ := rfl

theorem spares_grown {new : PathRef} {other : IdentityRef}
    (grown : Grown order store other new after) (different : identity ≠ other) :
    Spares store identity after := by
  obtain ⟨_, _, _, others, objects, _⟩ := grown_ways grown
  constructor
  case ways => rw [others identity different]
  case active => rw [others identity different]
  case priorities =>
    intro ref _
    rw [objects]

theorem spares_trans {middle : PathStore} (first : Spares store identity middle)
    (second : Spares middle identity after) : Spares store identity after where
  ways := second.ways.trans first.ways
  active := second.active.trans first.active
  priorities ref member :=
    (second.priorities ref (first.ways ▸ member)).trans (first.priorities ref member)

/-! ### What an answer does -/

theorem checkPriorityPath_ways (ref : PathRef) :
    ((checkPriorityPath order store identity ref).ways identity).availablePaths =
        (store.ways identity).availablePaths ∧
      ∀ other, other ≠ identity →
        (checkPriorityPath order store identity ref).ways other = store.ways other := by
  unfold checkPriorityPath
  dsimp only
  split
  · rw [ways_updateWays_same]
    exact ⟨rfl, fun other different => ways_updateWays_other _ different⟩
  · exact ⟨rfl, fun _ _ => rfl⟩

theorem checkPriorityPath_objects (ref : PathRef) :
    (checkPriorityPath order store identity ref).objects =
      (store.updatePath ref fun path =>
        { path with priority := rank order store identity ref }).objects := by
  unfold checkPriorityPath
  dsimp only
  split <;> rfl

/-- A path that takes its rank takes no less than it had. -/
theorem activePriority_ranked (inOrder : InOrder order store) {ref : PathRef}
    (listed : ref ∈ (store.ways identity).availablePaths) :
    store.activePriority identity ≤ (store.updatePath ref fun path =>
      { path with priority := rank order store identity ref }).activePriority identity := by
  unfold PathStore.activePriority
  change _ ≤ ((store.ways identity).activePath.map _).getD 0
  cases held : (store.ways identity).activePath with
  | none => exact Nat.le_refl _
  | some active =>
      rw [Option.map_some, Option.map_some, Option.getD_some, Option.getD_some]
      by_cases same : active = ref
      · rw [same]
        simpa [PathStore.updatePath] using inOrder.bounded identity ref listed
      · simp [PathStore.updatePath, same]

/-- Either the path beats the active one and takes its place, or nothing changes place. -/
theorem checkPriorityPath_cases (inOrder : InOrder order store) {ref : PathRef}
    (listed : ref ∈ (store.ways identity).availablePaths) :
    let after := checkPriorityPath order store identity ref
    (after.ways identity).activePath = some ref ∧
        after.activePriority identity = rank order store identity ref ∧
        store.activePriority identity < rank order store identity ref ∨
      (after.ways identity).activePath = (store.ways identity).activePath ∧
        store.activePriority identity ≤ after.activePriority identity ∧
        rank order store identity ref ≤ after.activePriority identity := by
  dsimp only
  have ranked : ((store.updatePath ref fun path =>
      { path with priority := rank order store identity ref }).objects ref).priority =
        rank order store identity ref := by simp [PathStore.updatePath]
  have least := activePriority_ranked inOrder listed
  unfold checkPriorityPath
  dsimp only
  rw [ranked]
  split
  · rename_i beats
    refine Or.inl ⟨by rw [ways_updateWays_same], ?_, ?_⟩
    · simp only [PathStore.activePriority, ways_updateWays_same, Option.map_some,
        Option.getD_some]
      exact ranked
    · exact Nat.lt_of_le_of_lt least beats
  · rename_i keeps
    exact Or.inr ⟨rfl, least, Nat.le_of_not_lt keeps⟩

theorem best_checkPriorityPath (inOrder : InOrder order store) {ref : PathRef}
    (listed : ref ∈ (store.ways identity).availablePaths) (best : Best store identity) :
    Best (checkPriorityPath order store identity ref) identity := by
  intro other member
  rw [(checkPriorityPath_ways ref).1] at member
  rw [checkPriorityPath_objects]
  by_cases same : other = ref
  · subst same
    simp only [PathStore.updatePath, Function.update_self]
    rcases checkPriorityPath_cases inOrder listed with ⟨_, equal, _⟩ | ⟨_, _, above⟩
    · exact Nat.le_of_eq equal.symm
    · exact above
  · simp only [PathStore.updatePath, Function.update_of_ne same]
    refine Nat.le_trans (best other member) ?_
    rcases checkPriorityPath_cases inOrder listed with ⟨_, equal, above⟩ | ⟨_, above, _⟩
    · exact Nat.le_trans (Nat.le_of_lt above) (Nat.le_of_eq equal.symm)
    · exact above

theorem spares_checkPriorityPath {other : IdentityRef} (inOrder : InOrder order store)
    {ref : PathRef} (listed : ref ∈ (store.ways other).availablePaths)
    (different : identity ≠ other) :
    Spares store identity (checkPriorityPath order store other ref) where
  ways := by rw [(checkPriorityPath_ways ref).2 identity different]
  active := by rw [(checkPriorityPath_ways ref).2 identity different]
  priorities path member := by
    have apart : path ≠ ref := by
      rintro rfl
      exact inOrder.apart identity other different member listed
    rw [checkPriorityPath_objects]
    simp [PathStore.updatePath, apart]

theorem best_grown {new : PathRef} (unused : Unused store new)
    (grown : Grown order store identity new after) (best : Best store identity) :
    Best after identity := by
  obtain ⟨list, active, _, _, objects, _⟩ := grown_ways grown
  have same : after.activePriority identity = store.activePriority identity :=
    activePriority_congr active fun ref _ => by rw [objects]
  intro ref member
  rw [list, List.mem_append, List.mem_singleton] at member
  rw [objects, same]
  rcases member with old | rfl
  · exact best ref old
  · rw [unused.unranked]
    exact Nat.zero_le _

theorem best_move (inOrder : InOrder order store) (best : Best store identity)
    (quiet : Quiet identity allowed) (move : Move order allowed store after) :
    Best after identity := by
  cases move with
  | made path available => exact best_spares inOrder (spares_makePath inOrder path available) best
  | added may grown =>
      rename_i path available other
      have made : Spares store identity (store.makePath path available) :=
        spares_makePath inOrder path available
      by_cases same : identity = other
      · subst same
        exact best_grown (unused_makePath inOrder path available) grown
          (best_spares inOrder made best)
      · exact best_spares inOrder (spares_trans made (spares_grown grown same)) best
  | opened may listed =>
      rename_i other active
      have different : identity ≠ other := fun same => quiet.1 (same ▸ may)
      exact best_spares inOrder (spares_updateWays _ different) best
  | unranked may listed =>
      rename_i other ref
      have different : identity ≠ other := fun same => quiet.2 (same ▸ may)
      refine best_spares inOrder (spares_updatePath _ fun member => ?_) best
      exact inOrder.apart identity other different member listed
  | answered may listed =>
      rename_i other ref
      have flagged := inOrder_flagged inOrder ref
      have still := best_spares inOrder (spares_flagged ref) best
      by_cases same : identity = other
      · subst same
        exact best_checkPriorityPath flagged listed still
      · exact best_spares flagged (spares_checkPriorityPath flagged listed same) still
  | cleared may =>
      rename_i other
      by_cases same : identity = other
      · intro ref member
        subst same
        simp [forgetPaths] at member
      · exact best_spares inOrder (spares_updateWays _ same) best

theorem best_moves (inOrder : InOrder order store) (best : Best store identity)
    (quiet : Quiet identity allowed) (moves : Moves order allowed store after) :
    Best after identity := by
  induction moves with
  | refl => exact best
  | tail earlier move ih => exact best_move (inOrder_moves inOrder earlier) ih quiet move

/-! ### What an offer does -/

/-- The answers take the priorities of the paths they go out on, and nothing else. -/
theorem answerOn_unranks {refs : List PathRef} {pathPacket : THPacket} {answers : List Answer}
    (answering : answerOn order store pathPacket refs = .ok (after, answers)) :
    after.ways = store.ways ∧ (∀ ref ∈ refs, (after.objects ref).priority = 0) ∧
      ∀ ref, (store.objects ref).priority = 0 → (after.objects ref).priority = 0 := by
  induction refs generalizing store pathPacket answers with
  | nil =>
      cases answering
      exact ⟨rfl, List.forall_mem_nil _, fun _ unranked => unranked⟩
  | cons ref rest ih =>
      obtain ⟨pathInfo, _, answering⟩ := (bind_ok_iff _ _ _).mp answering
      obtain ⟨⟨last, later⟩, looping, answering⟩ := (bind_ok_iff _ _ _).mp answering
      cases answering
      obtain ⟨ways, unranked, still⟩ := ih looping
      refine ⟨ways, ?_, ?_⟩
      · rw [List.forall_mem_cons]
        exact ⟨still ref (by simp [PathStore.updatePath]), unranked⟩
      · intro other was
        refine still other ?_
        by_cases same : other = ref
        · subst same
          simp [PathStore.updatePath]
        · simpa [PathStore.updatePath, same] using was

variable {stack : SockaddrIn} {transport : Option Nat}

theorem best_handlePath {packet : THPacket} {answers : List Answer}
    (offered : (packet.objectForKey "paths").isSome)
    (handling : handlePath order stack transport store identity packet = .ok (after, answers)) :
    Best after identity := by
  unfold handlePath at handling
  split at handling
  · rename_i missing
    rw [missing] at offered
    cases offered
  · obtain ⟨offers, _, handling⟩ := (bind_ok_iff _ _ _).mp handling
    obtain ⟨taken, _, handling⟩ := (bind_ok_iff _ _ _).mp handling
    split at handling
    · cases handling
    · obtain ⟨ways, unranked, _⟩ := answerOn_unranks handling
      intro ref member
      rw [ways] at member
      rw [unranked ref member]
      exact Nat.zero_le _

/-- The event makes the path of an open the active path of the identity. -/
def Opens (identity : IdentityRef) : Event → Prop
  | .processOpen toIdentity (some _) => toIdentity = identity
  | _ => False

theorem best_step (inOrder : InOrder order store) (best : Best store identity) (event : Event)
    (unopened : ¬ Opens identity event) :
    Best (step order stack transport store event) identity := by
  have quietly : Quiet identity (event.kinds store.identity) →
      Best (step order stack transport store event) identity :=
    fun quiet => best_moves inOrder best quiet (moves_step event)
  cases event with
  | handlePath toIdentity packet =>
      by_cases same : toIdentity = identity
      · subst same
        cases handling : handlePath order stack transport store toIdentity packet with
        | error fault =>
            rw [step, perform, handling]
            exact best
        | ok handled =>
            have result : step order stack transport store (.handlePath toIdentity packet) =
                handled.1 := by
              rw [step, perform, handling]
              rfl
            rw [result]
            cases offered : packet.objectForKey "paths" with
            | some offers => exact best_handlePath (by simp [offered]) handling
            | none =>
                rw [handlePath, offered] at handling
                cases handling
                exact best
      · refine quietly ⟨?_, ?_⟩
        · rintro (impossible | impossible) <;> cases impossible
        · rintro (impossible | impossible)
          · cases impossible
          · exact same (Kind.unranked.inj impossible).symm
  | processOpen toIdentity returnPath =>
      cases returnPath with
      | none => exact best
      | some path =>
          refine quietly ⟨?_, ?_⟩
          · rintro (impossible | impossible)
            · cases impossible
            · exact unopened (Kind.opened.inj impossible).symm
          · rintro (impossible | impossible) <;> cases impossible
  | handlerHandlePacket toIdentity packet returnPath =>
      refine quietly ⟨?_, ?_⟩ <;> rintro (impossible | impossible | impossible) <;>
        cases impossible
  | connect peerIdentity lined innerPacket returnPath =>
      refine quietly ⟨?_, ?_⟩ <;> rintro (impossible | impossible) <;> cases impossible
  | addPath toIdentity path => refine quietly ⟨?_, ?_⟩ <;> rintro ⟨⟩
  | reset cleared => refine quietly ⟨?_, ?_⟩ <;> rintro ⟨⟩

variable (order stack transport) in
theorem best_run (inOrder : InOrder order store) (best : Best store identity)
    (events : List Event) (unopened : ∀ event ∈ events, ¬ Opens identity event) :
    Best (run (step order stack transport) store events) identity := by
  induction events generalizing store with
  | nil => exact best
  | cons event rest ih =>
      rw [List.forall_mem_cons] at unopened
      exact ih (inOrder_moves inOrder (moves_step event))
        (best_step inOrder best event unopened.1) unopened.2

end Choice

/-! ### Between two offers -/

section Between
variable {order : ByteOrder} {stack : SockaddrIn} {transport : Option Nat} {allowed : Kind → Prop}
  {store after : PathStore} {identity : IdentityRef}

/-- The identity has the active path it had, or one of a higher priority. -/
def Advances (store : PathStore) (identity : IdentityRef) (after : PathStore) : Prop :=
  (after.ways identity).activePath = (store.ways identity).activePath ∧
      store.activePriority identity ≤ after.activePriority identity ∨
    store.activePriority identity < after.activePriority identity

theorem advances_trans {middle : PathStore} (first : Advances store identity middle)
    (second : Advances middle identity after) : Advances store identity after := by
  rcases first with ⟨same, kept⟩ | more <;> rcases second with ⟨sameNext, keptNext⟩ | moreNext
  · exact Or.inl ⟨sameNext.trans same, Nat.le_trans kept keptNext⟩
  · exact Or.inr (Nat.lt_of_le_of_lt kept moreNext)
  · exact Or.inr (Nat.lt_of_lt_of_le more keptNext)
  · exact Or.inr (Nat.lt_trans more moreNext)

theorem advances_spares (inOrder : InOrder order store) (spares : Spares store identity after) :
    Advances store identity after :=
  Or.inl ⟨spares.active, Nat.le_of_eq (spares_activePriority inOrder spares).symm⟩

theorem advances_grown {new : PathRef} (grown : Grown order store identity new after) :
    Advances store identity after := by
  obtain ⟨_, active, _, _, objects, _⟩ := grown_ways grown
  refine Or.inl ⟨active, Nat.le_of_eq (activePriority_congr active fun ref _ => ?_).symm⟩
  rw [objects]

theorem advances_move (inOrder : InOrder order store) (quiet : Quiet identity allowed)
    (kept : ¬ allowed (.cleared identity)) (move : Move order allowed store after) :
    Advances store identity after := by
  cases move with
  | made path available => exact advances_spares inOrder (spares_makePath inOrder path available)
  | added may grown =>
      rename_i path available other
      refine advances_trans (advances_spares inOrder (spares_makePath inOrder path available)) ?_
      by_cases same : identity = other
      · subst same
        exact advances_grown grown
      · exact advances_spares (inOrder_makePath inOrder path available) (spares_grown grown same)
  | opened may listed =>
      rename_i other active
      have different : identity ≠ other := fun same => quiet.1 (same ▸ may)
      exact advances_spares inOrder (spares_updateWays _ different)
  | unranked may listed =>
      rename_i other ref
      have different : identity ≠ other := fun same => quiet.2 (same ▸ may)
      exact advances_spares inOrder (spares_updatePath _ fun member =>
        inOrder.apart identity other different member listed)
  | answered may listed =>
      rename_i other ref
      have flagged := inOrder_flagged inOrder ref
      refine advances_trans (advances_spares inOrder (spares_flagged ref)) ?_
      by_cases same : identity = other
      · subst same
        rcases checkPriorityPath_cases flagged listed with ⟨_, equal, above⟩ | ⟨active, above, _⟩
        · exact Or.inr (Nat.lt_of_lt_of_eq above equal.symm)
        · exact Or.inl ⟨active, above⟩
      · exact advances_spares flagged (spares_checkPriorityPath flagged listed same)
  | cleared may =>
      rename_i other
      have different : identity ≠ other := fun same => kept (same ▸ may)
      exact advances_spares inOrder (spares_updateWays _ different)

theorem advances_moves (inOrder : InOrder order store) (quiet : Quiet identity allowed)
    (kept : ¬ allowed (.cleared identity)) (moves : Moves order allowed store after) :
    Advances store identity after := by
  induction moves with
  | refl => exact Or.inl ⟨rfl, Nat.le_refl _⟩
  | tail earlier move ih =>
      exact advances_trans ih (advances_move (inOrder_moves inOrder earlier) quiet kept move)

/-- The event neither offers paths for the identity nor forgets them, and is no open on one. -/
def Between (identity : IdentityRef) : Event → Prop
  | .handlePath toIdentity _ => toIdentity ≠ identity
  | .processOpen toIdentity _ => toIdentity ≠ identity
  | .connect peerIdentity _ _ _ => peerIdentity ≠ identity
  | .reset cleared => cleared ≠ identity
  | .handlerHandlePacket _ _ _ | .addPath _ _ => True

theorem between_quiet {own : IdentityRef} {event : Event} (between : Between identity event) :
    Quiet identity (event.kinds own) ∧ ¬ event.kinds own (.cleared identity) := by
  cases event with
  | handlePath toIdentity packet =>
      refine ⟨⟨?_, ?_⟩, ?_⟩ <;> rintro (impossible | impossible) <;> cases impossible
      exact between rfl
  | handlerHandlePacket toIdentity packet returnPath =>
      refine ⟨⟨?_, ?_⟩, ?_⟩ <;> rintro (impossible | impossible | impossible) <;> cases impossible
  | processOpen toIdentity returnPath =>
      refine ⟨⟨?_, ?_⟩, ?_⟩ <;> rintro (impossible | impossible) <;> cases impossible
      exact between rfl
  | connect peerIdentity lined innerPacket returnPath =>
      refine ⟨⟨?_, ?_⟩, ?_⟩ <;> rintro (impossible | impossible) <;> cases impossible
      exact between rfl
  | addPath toIdentity path => refine ⟨⟨?_, ?_⟩, ?_⟩ <;> rintro ⟨⟩
  | reset cleared =>
      refine ⟨⟨?_, ?_⟩, ?_⟩ <;> rintro ⟨⟩
      exact between rfl

variable (order stack transport) in
theorem advances_run (inOrder : InOrder order store) (events : List Event)
    (between : ∀ event ∈ events, Between identity event) :
    Advances store identity (run (step order stack transport) store events) := by
  induction events generalizing store with
  | nil => exact Or.inl ⟨rfl, Nat.le_refl _⟩
  | cons event rest ih =>
      rw [List.forall_mem_cons] at between
      obtain ⟨quiet, kept⟩ := between_quiet between.1
      have moves : Moves order (event.kinds store.identity) store
          (step order stack transport store event) := moves_step event
      exact advances_trans (advances_moves inOrder quiet kept moves)
        (ih (inOrder_moves inOrder moves) between.2)

theorem advances_most (advances : Advances store identity after) :
    store.activePriority identity ≤ after.activePriority identity := by
  rcases advances with ⟨_, above⟩ | more
  · exact above
  · exact Nat.le_of_lt more

end Between

/-! ### Local paths -/

section Local
variable (order : ByteOrder) (stack : SockaddrIn) (transport : Option Nat)

/-- The answer of the identity comes over a local path and finds the identity local. -/
def AnswersLocally (store : PathStore) (identity : IdentityRef) (event : Event) : Prop :=
  ∃ packet returnPath after, event = .handlerHandlePacket identity packet (some returnPath) ∧
    handlerHandlePacket order stack transport store identity packet (some returnPath) =
      .ok after ∧
    (after.ways identity).isLocal = true ∧ isLocal order returnPath = true

def LocalActive (store : PathStore) (identity : IdentityRef) : Prop :=
  ∃ active, (store.ways identity).activePath = some active ∧
    isLocal order (store.path active) = true

variable {order stack transport} {store : PathStore} {identity : IdentityRef}

/-- Whether a path is local is told by its information. -/
theorem isLocal_congr {one other : THIPV4Path} {info : PathInformation}
    (read : information order one = .ok info)
    (same : information order one = information order other) :
    isLocal order one = isLocal order other := by
  have ip : ∀ {path : THIPV4Path}, information order path = .ok info →
      inetNtoa path.toAddress.sinAddr = info.ip := by
    intro path told
    unfold information THIPV4Path.ip at told
    split at told
    · rename_i text hit
      cases told
      split at hit
      · exact Option.some.inj hit
      · cases hit
    · cases told
  have address := inetNtoa_injective ((ip read).trans (ip (same.symm.trans read)).symm)
  unfold isLocal
  rw [address]

/-- Both the identity and its active path have to be local for the highest priority. -/
theorem localActive_highest (inOrder : InOrder order store)
    (high : 2 ≤ store.activePriority identity) : LocalActive order store identity := by
  unfold PathStore.activePriority at high
  cases held : (store.ways identity).activePath with
  | none => simp [held] at high
  | some active =>
      refine ⟨active, held, ?_⟩
      have within := inOrder.bounded identity active (inOrder.active identity active held)
      rw [held] at high
      have ranked : 2 ≤ rank order store identity active := Nat.le_trans high within
      unfold rank at ranked
      split at ranked
      · rename_i both
        exact (Bool.and_eq_true_iff.mp both).2
      · omega

theorem isLocal_checkPriorityPath (ref : PathRef) :
    ((checkPriorityPath order store identity ref).ways identity).isLocal =
      (store.ways identity).isLocal := by
  unfold checkPriorityPath
  dsimp only
  split
  · rw [ways_updateWays_same]
    rfl
  · rfl

/-- Such an answer leaves the highest priority with the active path. -/
theorem highest_answered {event : Event} (inOrder : InOrder order store)
    (answers : AnswersLocally order stack transport store identity event) :
    2 ≤ (step order stack transport store event).activePriority identity := by
  obtain ⟨packet, returnPath, after, rfl, handling, near, onLocal⟩ := answers
  have result : step order stack transport store
      (.handlerHandlePacket identity packet (some returnPath)) = after := by
    rw [step, perform, handling]
    rfl
  obtain ⟨learnt, learning, marking⟩ := (bind_ok_iff _ _ _).mp handling
  have may : (Event.handlerHandlePacket identity packet (some returnPath)).kinds store.identity
      (.added identity) := Or.inr (Or.inl rfl)
  obtain ⟨kept, ref, moves, listed, same, rfl⟩ := markAlive_cases may marking
  have mayLearn : (Event.handlerHandlePacket identity packet (some returnPath)).kinds
      store.identity (.added store.identity) := Or.inl rfl
  have keptOrder := inOrder_moves (inOrder_moves inOrder (moves_learnPath mayLearn learning)) moves
  have flagged := inOrder_flagged keptOrder ref
  obtain ⟨info, read⟩ := keptOrder.readable identity ref listed
  have ranked : rank order (kept.updatePath ref fun path => { path with available := true })
      identity ref = 2 := by
    rw [isLocal_checkPriorityPath] at near
    have path : (kept.updatePath ref fun path => { path with available := true }).path =
        kept.path := path_updatePath fun _ => rfl
    rw [rank, near, path, isLocal_congr read same, onLocal]
    rfl
  rw [result, ← ranked]
  rcases checkPriorityPath_cases flagged listed with ⟨_, equal, _⟩ | ⟨_, _, above⟩
  · exact Nat.le_of_eq equal.symm
  · exact above

/-- Behind an offer that was handled, until an open comes over a path again: the active
path has the highest priority of all that are available, whatever answers, offers,
connects and resets arrive in whatever order; and from an answer over a local path to the
next offer, connect or reset a local path is active. -/
theorem best_path_active (order : ByteOrder) (stack : SockaddrIn) (transport : Option Nat)
    (own identity : IdentityRef) (before later : List Event) (packet : THPacket)
    (offered : (packet.objectForKey "paths").isSome)
    (handled : ∃ after, handlePath order stack transport
      (run (step order stack transport) (start own) before) identity packet = .ok after)
    (unopened : ∀ event ∈ later, ¬ Opens identity event) :
    Best (run (step order stack transport) (start own)
        (before ++ .handlePath identity packet :: later)) identity ∧
      ∀ earlier answer rest, later = earlier ++ answer :: rest →
        AnswersLocally order stack transport (run (step order stack transport) (start own)
          (before ++ .handlePath identity packet :: earlier)) identity answer →
        (∀ event ∈ rest, Between identity event) →
        LocalActive order (run (step order stack transport) (start own)
          (before ++ .handlePath identity packet :: later)) identity := by
  obtain ⟨⟨after, answers⟩, handling⟩ := handled
  have result : step order stack transport
      (run (step order stack transport) (start own) before) (.handlePath identity packet) =
        after := by
    rw [step, perform, handling]
    rfl
  constructor
  · have behind : InOrder order after := result ▸
      inOrder_moves (ways_stay_in_order order stack transport own before) (moves_step _)
    rw [run_append, run_cons, result]
    exact best_run order stack transport behind (best_handlePath offered handling) later unopened
  · rintro earlier answer rest rfl answered between
    have inOrder := ways_stay_in_order order stack transport own
      (before ++ .handlePath identity packet :: earlier)
    have split_ : before ++ .handlePath identity packet :: (earlier ++ answer :: rest) =
        (before ++ .handlePath identity packet :: earlier) ++ answer :: rest := by
      simp only [List.append_assoc, List.cons_append]
    have last := ways_stay_in_order order stack transport own
      (before ++ .handlePath identity packet :: (earlier ++ answer :: rest))
    refine localActive_highest last ?_
    rw [split_, run_append, run_cons]
    have high := highest_answered inOrder answered
    refine Nat.le_trans high (advances_most ?_)
    exact advances_run order stack transport (inOrder_moves inOrder (moves_step answer)) rest
      between

end Local

/-! ## A switch and a neighbour -/

def ipv4Path (address : InAddr) : THIPV4Path := ⟨⟨afInet, 47269, address⟩, 0⟩

def homePath : THIPV4Path := ipv4Path ⟨192, 168, 0, 7⟩

def outsidePath : THIPV4Path := ipv4Path ⟨208, 126, 199, 195⟩

/-- The neighbour is known by the address of the house and by one in it. -/
def neighbourKnown : List Event :=
  [.addPath 0 (some outsidePath), .addPath 0 (some homePath), .addPath 1 (some outsidePath),
    .addPath 1 (some (ipv4Path ⟨192, 168, 0, 9⟩))]

def emptyOffer : THPacket :=
  ⟨some ((Dictionary.single "c" (.number 2)).insert "paths" (.array [])), none, 0, none⟩

def answersBack : List Event :=
  [.handlerHandlePacket 1 THPacket.new (some outsidePath),
    .handlerHandlePacket 1 THPacket.new (some (ipv4Path ⟨192, 168, 0, 9⟩)),
    .handlerHandlePacket 1 THPacket.new (some outsidePath)]

/-- The second of the answers comes over the path inside the house. -/
theorem best_path_active_neighbour :
    Best (run (step .littleEndian homePath.toAddress none) (start 0)
        (neighbourKnown ++ .handlePath 1 emptyOffer :: answersBack)) 1 ∧
      LocalActive .littleEndian (run (step .littleEndian homePath.toAddress none) (start 0)
        (neighbourKnown ++ .handlePath 1 emptyOffer :: answersBack)) 1 := by
  obtain ⟨best, kept⟩ := best_path_active .littleEndian homePath.toAddress none 0 1 neighbourKnown
    answersBack emptyOffer rfl ⟨_, rfl⟩ (by simp [answersBack, Opens])
  have overInside : AnswersLocally .littleEndian homePath.toAddress none
      (run (step .littleEndian homePath.toAddress none) (start 0)
        (neighbourKnown ++ [.handlePath 1 emptyOffer,
          .handlerHandlePacket 1 THPacket.new (some outsidePath)])) 1
      (.handlerHandlePacket 1 THPacket.new (some (ipv4Path ⟨192, 168, 0, 9⟩))) :=
    ⟨_, _, _, rfl, rfl, by decide +kernel, by decide⟩
  exact ⟨best, kept [.handlerHandlePacket 1 THPacket.new (some outsidePath)] _
    [.handlerHandlePacket 1 THPacket.new (some outsidePath)] rfl overInside (by simp [Between])⟩

example : ((run (step .littleEndian homePath.toAddress none) (start 0)
    (neighbourKnown ++ .handlePath 1 emptyOffer :: answersBack)).ways 1).activePath = some 3 := by
  decide +kernel

/-! ## How often the active path changes -/

section Settling
variable {order : ByteOrder} {stack : SockaddrIn} {transport : Option Nat} {store : PathStore}
  {identity : IdentityRef}

variable (order stack transport identity) in
/-- How many of the events leave the identity with another active path. -/
def changes (store : PathStore) : List Event → Nat
  | [] => 0
  | event :: rest =>
      let after := step order stack transport store event
      (if (after.ways identity).activePath = (store.ways identity).activePath then 0 else 1) +
        changes after rest

theorem changes_bounded (inOrder : InOrder order store) (events : List Event)
    (between : ∀ event ∈ events, Between identity event) :
    store.activePriority identity + changes order stack transport identity store events ≤
      (run (step order stack transport) store events).activePriority identity := by
  induction events generalizing store with
  | nil => exact Nat.le_refl _
  | cons event rest ih =>
      rw [List.forall_mem_cons] at between
      obtain ⟨quiet, kept⟩ := between_quiet between.1
      have moves : Moves order (event.kinds store.identity) store
          (step order stack transport store event) := moves_step event
      have later := ih (inOrder_moves inOrder moves) between.2
      have advances := advances_moves inOrder quiet kept moves
      refine Nat.le_trans ?_ later
      rw [changes, ← Nat.add_assoc]
      refine Nat.add_le_add_right ?_ _
      split
      · exact advances_most advances
      · rename_i changed
        rcases advances with ⟨same, _⟩ | more
        · exact absurd same changed
        · exact more

theorem activePriority_le_two (inOrder : InOrder order store) :
    store.activePriority identity ≤ 2 := by
  unfold PathStore.activePriority
  cases held : (store.ways identity).activePath with
  | none => exact Nat.zero_le _
  | some active =>
      exact Nat.le_trans (inOrder.bounded identity active (inOrder.active identity active held))
        rank_le_two

/-- Between two offers the active path changes at most twice, however many answers come
over however many paths. -/
theorem active_path_settles (order : ByteOrder) (stack : SockaddrIn) (transport : Option Nat)
    (own identity : IdentityRef) (before later : List Event)
    (between : ∀ event ∈ later, Between identity event) :
    changes order stack transport identity
      (run (step order stack transport) (start own) before) later ≤ 2 := by
  have inOrder := ways_stay_in_order order stack transport own before
  have bounded : _ ≤ (run (step order stack transport)
      (run (step order stack transport) (start own) before) later).activePriority identity :=
    changes_bounded inOrder later between
  have last := ways_stay_in_order order stack transport own (before ++ later)
  rw [run_append] at last
  exact Nat.le_trans (Nat.le_of_add_left_le bounded) (activePriority_le_two last)

end Settling

theorem active_path_settles_neighbour :
    changes .littleEndian homePath.toAddress none 1
      (run (step .littleEndian homePath.toAddress none) (start 0) neighbourKnown)
      answersBack ≤ 2 :=
  active_path_settles .littleEndian homePath.toAddress none 0 1 neighbourKnown answersBack
    (by simp [answersBack, Between])

end Telehash.PathChoice
