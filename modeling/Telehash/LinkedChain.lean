import Mathlib.Data.List.Nodup
import Mathlib.Data.List.Perm.Subperm
import Mathlib.Logic.Function.Basic

/-!
Singly linked chains of cells named by references. `Linked` says which cells are
met from a head on; where the chain ends nothing is met twice, and what is
written to other cells does not change it. A loop that follows the references
is a fold over the cells met.
-/

namespace Telehash.LinkedChain

variable {Ref State : Type}

/-- The cells from a head to the end of its chain. -/
def Linked (next : Ref → Option Ref) : Option Ref → List Ref → Prop
  | head, [] => head = none
  | head, ref :: rest => head = some ref ∧ Linked next (next ref) rest

variable {next other : Ref → Option Ref}

theorem linked_head {head : Option Ref} {refs : List Ref} (chain : Linked next head refs) :
    head = refs.head? := by
  cases refs with
  | nil => exact chain
  | cons ref rest => exact chain.1

theorem linked_cons {ref : Ref} {refs : List Ref} (chain : Linked next (some ref) refs) :
    ∃ rest, refs = ref :: rest ∧ Linked next (next ref) rest := by
  cases refs with
  | nil => cases chain
  | cons first rest =>
      obtain ⟨same, later⟩ := chain
      cases same
      exact ⟨rest, rfl, later⟩

/-- From one head on there is one chain. -/
theorem linked_unique {head : Option Ref} {refs others : List Ref} (chain : Linked next head refs)
    (also : Linked next head others) : refs = others := by
  induction refs generalizing head others with
  | nil =>
      cases others with
      | nil => rfl
      | cons first rest => cases chain.symm.trans also.1
  | cons ref rest ih =>
      obtain ⟨rfl, later⟩ := chain
      obtain ⟨_, rfl, alsoLater⟩ := linked_cons also
      rw [ih later alsoLater]

/-- A chain depends on its own cells alone. -/
theorem linked_congr {head : Option Ref} {refs : List Ref}
    (same : ∀ ref ∈ refs, other ref = next ref) (chain : Linked next head refs) :
    Linked other head refs := by
  induction refs generalizing head with
  | nil => exact chain
  | cons ref rest ih =>
      obtain ⟨first, later⟩ := List.forall_mem_cons.mp same
      exact ⟨chain.1, first ▸ ih later chain.2⟩

theorem linked_suffix {head : Option Ref} {front rest : List Ref}
    (chain : Linked next head (front ++ rest)) : ∃ head', Linked next head' rest := by
  induction front generalizing head with
  | nil => exact ⟨head, chain⟩
  | cons ref front ih => exact ih chain.2

/-- A chain that ends meets no cell twice. -/
theorem linked_nodup {head : Option Ref} {refs : List Ref} (chain : Linked next head refs) :
    refs.Nodup := by
  induction refs generalizing head with
  | nil => exact List.nodup_nil
  | cons ref rest ih =>
      refine List.nodup_cons.mpr ⟨fun met => ?_, ih chain.2⟩
      -- from its second place on the cell has a shorter chain
      obtain ⟨front, back, split⟩ := List.append_of_mem met
      obtain ⟨head', later⟩ := linked_suffix (split ▸ chain.2)
      have again : Linked next head' (ref :: rest) := ⟨later.1, chain.2⟩
      have same := linked_unique later again
      have longer := congrArg List.length same
      rw [split] at longer
      simp only [List.length_cons, List.length_append] at longer
      omega

/-- Past a cell of the chain its rest is met. -/
theorem linked_at {head : Option Ref} {front rest : List Ref} {ref : Ref}
    (chain : Linked next head (front ++ ref :: rest)) : Linked next (next ref) rest := by
  induction front generalizing head with
  | nil => exact chain.2
  | cons first front ih => exact ih chain.2

/-- A cell put behind another one of the chain. -/
theorem linked_splice {head : Option Ref} {front rest : List Ref} {ref fresh : Ref}
    (chain : Linked next head (front ++ ref :: rest)) (link : other ref = some fresh)
    (onward : other fresh = next ref) (same : ∀ cell ∈ front ++ rest, other cell = next cell) :
    Linked other head (front ++ ref :: fresh :: rest) := by
  induction front generalizing head with
  | nil => exact ⟨chain.1, link, onward ▸ linked_congr same chain.2⟩
  | cons first front ih =>
      obtain ⟨kept, others⟩ := List.forall_mem_cons.mp same
      exact ⟨chain.1, kept ▸ ih chain.2 others⟩

theorem nodup_length_le {refs : List Nat} {bound : Nat} (distinct : refs.Nodup)
    (below : ∀ ref ∈ refs, ref < bound) : refs.length ≤ bound := by
  have within : refs ⊆ List.range bound := fun ref member => List.mem_range.mpr (below ref member)
  have fewer := (distinct.subperm within).length_le
  rwa [List.length_range] at fewer

/-- The loop over a chain that only reads its cells. Without a turn left it is
still running. -/
def traverse (next : Ref → Option Ref) (body : State → Ref → State) :
    (turns : Nat) → Option Ref → State → Option State
  | 0, _, _ => none
  | _ + 1, none, state => some state
  | turns + 1, some ref, state => traverse next body turns (next ref) (body state ref)

theorem traverse_linked (body : State → Ref → State) {head : Option Ref} {refs : List Ref}
    (chain : Linked next head refs) {turns : Nat} (enough : refs.length < turns) (state : State) :
    traverse next body turns head state = some (refs.foldl body state) := by
  induction refs generalizing head turns state with
  | nil =>
      obtain ⟨turns, rfl⟩ := Nat.exists_eq_add_one_of_ne_zero (by omega : turns ≠ 0)
      rw [chain]
      rfl
  | cons ref rest ih =>
      rw [List.length_cons] at enough
      obtain ⟨turns, rfl⟩ := Nat.exists_eq_add_one_of_ne_zero (by omega : turns ≠ 0)
      rw [chain.1]
      exact ih chain.2 (by omega) _

end Telehash.LinkedChain
