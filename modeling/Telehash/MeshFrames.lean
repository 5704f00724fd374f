import Telehash.MeshBuckets

/-!
What the calls on a mesh leave alone. A call about an identity changes buckets,
what is known of that identity, and what is asked of it; a relation that such
changes keep up holds between the meshes before and after the call.
-/

namespace Telehash.MeshFrames
open Foundation Channel MeshBuckets
open Identity (IdentityRef LineRef ChannelRef)

/-- A relation kept up by changes to a bucket and to one peer. -/
structure Framed (related : Mesh → Mesh → Prop) (identity : IdentityRef) : Prop where
  refl : ∀ mesh, related mesh mesh
  trans : ∀ {after middle before}, related after middle → related middle before →
    related after before
  setBucket : ∀ (mesh : Mesh) index bucket, related (mesh.setBucket index bucket) mesh
  updatePeer : ∀ (mesh : Mesh) change, related (mesh.updatePeer identity change) mesh

/-- A relation kept up by questions to a peer as well. -/
structure FramedAsking (related : Mesh → Mesh → Prop) (identity : IdentityRef) : Prop
    extends Framed related identity where
  ask : ∀ (mesh : Mesh) request, related (mesh.ask identity request) mesh

/-- The mesh a call leaves, if it raises nothing, is related to the one before. -/
def Leaves (related : Mesh → Mesh → Prop) (before : Mesh) (result : Except Fault Mesh) : Prop :=
  ∀ after, result = .ok after → related after before

variable {related : Mesh → Mesh → Prop} {identity : IdentityRef} {before mesh : Mesh}
  {beyond : Data}

theorem leaves_ok (holds : related mesh before) : Leaves related before (.ok mesh) := by
  intro after computed
  rw [← Except.ok.inj computed]
  exact holds

theorem leaves_read {Value : Type} {computed : Except Fault Value}
    {next : Value → Except Fault Mesh} (all : ∀ value, Leaves related before (next value)) :
    Leaves related before (computed >>= next) := by
  intro after result
  obtain ⟨value, _, later⟩ := (bind_ok_iff _ _ _).mp result
  exact all value after later

theorem Leaves.bind {result : Except Fault Mesh} {next : Mesh → Except Fault Mesh}
    (first : Leaves related before result)
    (then_ : ∀ middle, related middle before → Leaves related before (next middle)) :
    Leaves related before (result >>= next) := by
  intro after computed
  obtain ⟨middle, one, other⟩ := (bind_ok_iff _ _ _).mp computed
  exact then_ middle (first middle one) after other

section Calls
variable (framed : Framed related identity) (holds : related mesh before)
include framed holds

theorem removeFromBucket_leaves (object : Object) :
    Leaves related before (removeFromBucket beyond mesh identity object) := by
  apply leaves_read
  intro bucketIndex
  apply leaves_read
  exact fun bucket => leaves_ok (framed.trans (framed.setBucket _ _ _) holds)

theorem didChangeStateTo_leaves (channel : ChannelRef) (state : THChannelState) :
    Leaves related before (didChangeStateTo beyond mesh channel identity state) := by
  unfold didChangeStateTo
  split
  · exact removeFromBucket_leaves framed holds _
  · exact leaves_ok holds

theorem setState_leaves (linkChannel : LinkChannel) (state : THChannelState) :
    Leaves related before (setState beyond mesh identity linkChannel state) := by
  have changed := framed.trans (framed.updatePeer mesh fun peer =>
    { peer with linkChannel := some { linkChannel with state := state } }) holds
  unfold setState
  dsimp only
  split
  · exact didChangeStateTo_leaves framed changed _ _
  · exact leaves_ok changed

theorem closeLine_leaves (line : LineRef) :
    Leaves related before (closeLine beyond mesh line identity) :=
  (removeFromBucket_leaves framed holds _).bind fun _ kept =>
    leaves_ok (framed.trans (framed.updatePeer _ _) kept)

theorem endLink_leaves : Leaves related before (endLink beyond mesh identity) := by
  unfold endLink
  cases (mesh.peers identity).linkChannel with
  | none => exact leaves_ok holds
  | some linkChannel =>
      by_cases open_ : linkChannel.state ≠ .ended
      · simp only [open_, ne_eq, not_false_eq_true, ↓reduceIte]
        exact (setState_leaves framed holds _ _).bind fun _ kept =>
          leaves_ok (framed.trans (framed.updatePeer _ _) kept)
      · simp only [open_, ↓reduceIte]
        exact leaves_ok (framed.trans (framed.updatePeer _ _) holds)

theorem failLink_leaves : Leaves related before (failLink beyond mesh identity) := by
  unfold failLink
  cases (mesh.peers identity).linkChannel with
  | none => exact leaves_ok holds
  | some linkChannel =>
      apply (removeFromBucket_leaves framed holds _).bind
      intro told kept
      exact (setState_leaves framed kept _ _).bind fun _ last =>
        leaves_ok (framed.trans (framed.updatePeer _ _) last)

omit holds in
/-- A reset behind the question for it. -/
theorem reset_leaves (asked : related (mesh.ask identity .reset) before) :
    Leaves related before (reset beyond mesh identity) := by
  unfold reset
  apply (endLink_leaves framed asked).bind
  intro closed kept
  have unreachable := framed.trans (framed.updatePeer closed fun peer =>
    { peer with hasActivePath := false, hasPeerChannel := false }) kept
  dsimp only
  split
  · exact leaves_ok unreachable
  · exact closeLine_leaves framed unreachable _

end Calls

section Asking
variable (framed : FramedAsking related identity) (holds : related mesh before)
include framed holds

theorem addIdentity_leaves : Leaves related before (addIdentity beyond mesh identity) := by
  apply leaves_read
  intro bucketIndex
  apply leaves_read
  intro bucket
  split
  · split
    · exact leaves_ok (framed.trans (framed.ask _ _) holds)
    · exact leaves_ok holds
  · split
    · exact leaves_ok holds
    · exact leaves_ok (framed.trans (framed.setBucket _ _ _) holds)

theorem linkToIdentity_leaves (sorting : Sorting)
    (seekString : IdentityRef → IdentityRef → Option String) (newChannel : LinkChannel) :
    Leaves related before
      (linkToIdentity beyond sorting seekString newChannel mesh identity) := by
  apply (addIdentity_leaves framed holds).bind
  intro added kept
  apply leaves_read
  intro seeIdentities
  dsimp only
  split
  · exact leaves_ok (framed.trans (framed.ask _ _) kept)
  · exact leaves_ok (framed.trans (framed.updatePeer _ _) (framed.trans (framed.ask _ _) kept))

theorem pingIdentity_leaves (checkTime bucketIndex idx : Nat) :
    Leaves related before (pingIdentity beyond checkTime bucketIndex idx identity mesh) := by
  have resets : ∀ {mesh}, related mesh before →
      Leaves related before (reset beyond mesh identity) := fun kept =>
    reset_leaves framed.toFramed (framed.trans (framed.ask _ _) kept)
  unfold pingIdentity
  dsimp only
  split
  · split
    · exact resets (framed.trans (framed.updatePeer _ _)
        (framed.trans (framed.setBucket _ _ _) holds))
    · split
      · exact leaves_ok (framed.trans (framed.ask _ _) holds)
      · split
        · exact leaves_ok (framed.trans (framed.ask _ _) holds)
        · exact leaves_ok holds
  · exact resets holds

end Asking

section Passes
variable (framed : ∀ identity, FramedAsking related identity)
include framed

theorem pingBucket_leaves (checkTime bucketIndex fuel idx : Nat) (holds : related mesh before) :
    Leaves related before (pingBucket beyond checkTime bucketIndex fuel idx mesh) := by
  induction fuel generalizing idx mesh with
  | zero => exact leaves_ok holds
  | succ fuel ih =>
      unfold pingBucket
      split
      · exact leaves_ok holds
      · exact (pingIdentity_leaves (framed _) holds _ _ _).bind fun _ kept => ih (idx + 1) kept

theorem pingLines_leaves (checkTime : Nat) (holds : related mesh before) :
    Leaves related before (pingLines beyond mesh checkTime) := by
  unfold pingLines
  generalize List.range mesh.table.buckets.length = indices
  induction indices generalizing mesh with
  | nil => exact leaves_ok holds
  | cons index rest ih =>
      rw [List.foldlM_cons]
      exact (pingBucket_leaves framed _ _ _ _ holds).bind fun _ kept => ih kept

end Passes

end Telehash.MeshFrames
