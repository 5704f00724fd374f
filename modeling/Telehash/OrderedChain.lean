import Mathlib.Data.List.Basic
import Mathlib.Data.List.Pairwise

/-!
Chains in strictly ascending order of a natural key, seen as finite maps from
keys to entries: insertion that keeps the entry already stored under a key, and
removal of every key up to a bound.
-/

namespace Telehash.OrderedChain

variable {Entry : Type} (key : Entry → Nat)

def Ascending (chain : List Entry) : Prop := chain.Pairwise fun left right => key left < key right

def insertAbsent (fresh : Entry) : List Entry → List Entry
  | [] => [fresh]
  | entry :: rest =>
      if key fresh < key entry then fresh :: entry :: rest
      else if key fresh = key entry then entry :: rest
      else entry :: insertAbsent fresh rest

def dropThrough (bound : Nat) (chain : List Entry) : List Entry :=
  chain.dropWhile fun entry => key entry ≤ bound

variable {key}

theorem ascending_nil : Ascending key ([] : List Entry) := List.Pairwise.nil

theorem ascending_cons (entry : Entry) (rest : List Entry) :
    Ascending key (entry :: rest) ↔ (∀ later ∈ rest, key entry < key later) ∧ Ascending key rest :=
  List.pairwise_cons

/-- Nothing in an ascending chain is below its first key. -/
theorem absent_below {head : Entry} {rest : List Entry} (ascending : Ascending key (head :: rest))
    {wanted : Nat} (before : wanted < key head) : wanted ∉ (head :: rest).map key := by
  intro member
  obtain ⟨entry, inside, rfl⟩ := List.mem_map.mp member
  rcases List.mem_cons.mp inside with rfl | later
  · exact Nat.lt_irrefl _ before
  · exact Nat.lt_asymm before (((ascending_cons head rest).mp ascending).1 entry later)

theorem mem_insertAbsent {chain : List Entry} (ascending : Ascending key chain)
    (fresh entry : Entry) :
    entry ∈ insertAbsent key fresh chain ↔
      entry ∈ chain ∨ (entry = fresh ∧ key fresh ∉ chain.map key) := by
  induction chain with
  | nil => simp [insertAbsent]
  | cons head rest ih =>
      obtain ⟨below, tail⟩ := (ascending_cons head rest).mp ascending
      have absentBelow : key fresh ≤ key head → key fresh ∉ rest.map key := by
        intro before member
        obtain ⟨later, inside, same⟩ := List.mem_map.mp member
        have := below later inside
        omega
      unfold insertAbsent
      split
      · rename_i before
        have absent := absentBelow (by omega)
        have other : key fresh ≠ key head := by omega
        simp [absent, other, or_comm]
      · split
        · rename_i same
          simp [same]
        · rename_i different
          simp [ih tail, different, or_assoc]

theorem key_mem_insertAbsent {chain : List Entry} (ascending : Ascending key chain)
    (fresh : Entry) (wanted : Nat) :
    wanted ∈ (insertAbsent key fresh chain).map key ↔
      wanted ∈ chain.map key ∨ wanted = key fresh := by
  simp only [List.mem_map]
  constructor
  · rintro ⟨entry, member, rfl⟩
    rcases (mem_insertAbsent ascending fresh entry).mp member with old | ⟨rfl, _⟩
    · exact Or.inl ⟨entry, old, rfl⟩
    · exact Or.inr rfl
  · rintro (⟨entry, member, rfl⟩ | rfl)
    · exact ⟨entry, (mem_insertAbsent ascending fresh entry).mpr (Or.inl member), rfl⟩
    · by_cases stored : key fresh ∈ chain.map key
      · obtain ⟨entry, member, same⟩ := List.mem_map.mp stored
        exact ⟨entry, (mem_insertAbsent ascending fresh entry).mpr (Or.inl member), same⟩
      · exact ⟨fresh, (mem_insertAbsent ascending fresh fresh).mpr (Or.inr ⟨rfl, stored⟩), rfl⟩

theorem insertAbsent_ascending {chain : List Entry} (ascending : Ascending key chain)
    (fresh : Entry) : Ascending key (insertAbsent key fresh chain) := by
  induction chain with
  | nil => exact List.pairwise_singleton _ _
  | cons head rest ih =>
      obtain ⟨below, tail⟩ := (ascending_cons head rest).mp ascending
      unfold insertAbsent
      split
      · rename_i before
        refine (ascending_cons _ _).mpr ⟨fun later member => ?_, ascending⟩
        rcases List.mem_cons.mp member with rfl | inner
        · exact before
        · exact Nat.lt_trans before (below later inner)
      · split
        · exact ascending
        · rename_i notBefore different
          refine (ascending_cons _ _).mpr ⟨fun later member => ?_, ih tail⟩
          rcases (mem_insertAbsent tail fresh later).mp member with old | ⟨rfl, _⟩
          · exact below later old
          · omega

/-- Through the front of an ascending chain the bound cuts exactly the keys up to it. -/
theorem mem_dropThrough {chain : List Entry} (ascending : Ascending key chain) (bound : Nat)
    (entry : Entry) :
    entry ∈ dropThrough key bound chain ↔ entry ∈ chain ∧ bound < key entry := by
  induction chain with
  | nil => simp [dropThrough]
  | cons head rest ih =>
      obtain ⟨below, tail⟩ := (ascending_cons head rest).mp ascending
      by_cases cut : key head ≤ bound
      · have step : dropThrough key bound (head :: rest) = dropThrough key bound rest := by
          simp [dropThrough, cut]
        rw [step, ih tail, List.mem_cons]
        constructor
        · rintro ⟨inner, above⟩
          exact ⟨Or.inr inner, above⟩
        · rintro ⟨rfl | inner, above⟩
          · omega
          · exact ⟨inner, above⟩
      · have whole : dropThrough key bound (head :: rest) = head :: rest := by
          simp [dropThrough, cut]
        rw [whole]
        refine ⟨fun member => ⟨member, ?_⟩, And.left⟩
        rcases List.mem_cons.mp member with rfl | inner
        · omega
        · have := below entry inner; omega

theorem dropThrough_ascending {chain : List Entry} (ascending : Ascending key chain)
    (bound : Nat) : Ascending key (dropThrough key bound chain) :=
  List.Pairwise.sublist (List.dropWhile_suffix _).sublist ascending

/-- A key above all others goes to the end. -/
theorem insertAbsent_above {chain : List Entry} {fresh : Entry}
    (above : ∀ entry ∈ chain, key entry < key fresh) :
    insertAbsent key fresh chain = chain ++ [fresh] := by
  induction chain with
  | nil => rfl
  | cons head rest ih =>
      obtain ⟨first, others⟩ := List.forall_mem_cons.mp above
      have before : ¬ key fresh < key head := by omega
      have same : key fresh ≠ key head := by omega
      simp [insertAbsent, before, same, ih others]

/-- What is cut off an interval leaves an interval with the same end. -/
theorem dropWhile_range' (low count bound : Nat) :
    (List.range' low count).dropWhile (· ≤ bound) =
      List.range' (max low (bound + 1)) (low + count - max low (bound + 1)) := by
  induction count generalizing low with
  | zero =>
      have none : low + 0 - max low (bound + 1) = 0 := by omega
      rw [none]
      rfl
  | succ count ih =>
      by_cases cut : low ≤ bound
      · have shifted : max low (bound + 1) = max (low + 1) (bound + 1) := by omega
        have kept : low + (count + 1) = low + 1 + count := by omega
        simp only [List.range'_succ, List.dropWhile_cons, cut, decide_true, ↓reduceIte, ih]
        rw [shifted, kept]
      · have whole : max low (bound + 1) = low := by omega
        have kept : low + (count + 1) - low = count + 1 := by omega
        rw [whole, kept, List.range'_succ]
        simp [cut]

/-! ## The numbers between those of a list -/

def gaps : List Nat → List Nat
  | low :: high :: rest => List.range' (low + 1) (high - (low + 1)) ++ gaps (high :: rest)
  | _ => []

theorem mem_gaps {low : Nat} {rest : List Nat} (ascending : (low :: rest).Pairwise (· < ·))
    (between : Nat) :
    between ∈ gaps (low :: rest) ↔
      low < between ∧ (∃ high ∈ rest, between < high) ∧ between ∉ rest := by
  induction rest generalizing low with
  | nil => simp [gaps]
  | cons high rest ih =>
      obtain ⟨below, tail⟩ := List.pairwise_cons.mp ascending
      have first := below high List.mem_cons_self
      have beyond := (List.pairwise_cons.mp tail).1
      rw [gaps, List.mem_append, List.mem_range'_1, ih tail]
      constructor
      · rintro (⟨above, under⟩ | ⟨above, ⟨later, inside, under⟩, absent⟩)
        · have under : between < high := by omega
          refine ⟨by omega, ⟨high, List.mem_cons_self, under⟩, fun member => ?_⟩
          rcases List.mem_cons.mp member with rfl | inner
          · omega
          · have := beyond between inner
            omega
        · refine ⟨by omega, ⟨later, List.mem_cons_of_mem _ inside, under⟩, fun member => ?_⟩
          rcases List.mem_cons.mp member with rfl | inner
          · omega
          · exact absent inner
      · rintro ⟨above, ⟨later, inside, under⟩, absent⟩
        have other : between ≠ high := fun same => absent (same ▸ List.mem_cons_self)
        have outside : between ∉ rest := fun member => absent (List.mem_cons_of_mem _ member)
        by_cases under' : between < high
        · exact Or.inl ⟨by omega, by omega⟩
        · refine Or.inr ⟨by omega, ⟨later, ?_, under⟩, outside⟩
          rcases List.mem_cons.mp inside with rfl | inner
          · omega
          · exact inner

theorem gaps_ascending {low : Nat} {rest : List Nat}
    (ascending : (low :: rest).Pairwise (· < ·)) : (gaps (low :: rest)).Pairwise (· < ·) := by
  induction rest generalizing low with
  | nil => exact List.Pairwise.nil
  | cons high rest ih =>
      obtain ⟨below, tail⟩ := List.pairwise_cons.mp ascending
      refine List.pairwise_append.mpr ⟨List.pairwise_lt_range', ih tail, ?_⟩
      intro early before late after
      have first := below high List.mem_cons_self
      have under := (List.mem_range'_1.mp before).2
      have above := ((mem_gaps tail late).mp after).1
      omega

end Telehash.OrderedChain
