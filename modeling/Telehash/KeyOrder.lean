import Mathlib.Data.List.Sort
import Mathlib.Data.List.Basic
import Mathlib.Order.Basic

/-!
Lists sorted by a key, the largest first. Such a list is also sorted the other
way round only if all its keys are equal, and its first entries are the
smallest only if they are all of it.
-/

namespace Telehash.KeyOrder

variable {Item Key : Type} (key : Item → Key)

def Constant (items : List Item) : Prop := ∀ one ∈ items, ∀ other ∈ items, key one = key other

theorem constant_perm {items others : List Item} (same : items.Perm others) :
    Constant key items ↔ Constant key others := by
  simp only [Constant, same.mem_iff]

theorem constant_short {items : List Item} (short : items.length ≤ 1) : Constant key items := by
  match items, short with
  | [], _ =>
      intro one member
      cases member
  | [only], _ =>
      intro one member other alsoMember
      rw [List.mem_singleton.mp member, List.mem_singleton.mp alsoMember]

variable [LinearOrder Key]

/-- No entry has a larger key than one before it. -/
def Descending (items : List Item) : Prop :=
  items.Pairwise fun earlier later => key later ≤ key earlier

theorem mergeSort_descending (items : List Item) :
    Descending key (items.mergeSort fun one other => decide (key other ≤ key one)) := by
  have sorted := @List.pairwise_mergeSort Item (fun one other => decide (key other ≤ key one))
    (fun one middle other first second => by
      rw [decide_eq_true_iff] at first second ⊢
      exact le_trans second first)
    (fun one other => by
      rw [Bool.or_eq_true, decide_eq_true_iff, decide_eq_true_iff]
      exact le_total _ _) items
  exact sorted.imp fun ordered => of_decide_eq_true ordered

variable {key} {items : List Item}

/-- The entries of a descending list lie between its last key and its first. -/
theorem between {first : Item} {rest : List Item} (sorted : Descending key (first :: rest))
    {item : Item} (member : item ∈ first :: rest) :
    key item ≤ key first ∧ key ((first :: rest).getLast (List.cons_ne_nil _ _)) ≤ key item := by
  have heads := (List.pairwise_cons.mp sorted).1
  constructor
  · rcases List.mem_cons.mp member with rfl | later
    · exact le_refl _
    · exact heads item later
  · obtain ⟨before, after, place⟩ := List.append_of_mem member
    have tail : Descending key (item :: after) := by
      have whole := sorted
      rw [place] at whole
      exact (List.pairwise_append.mp whole).2.1
    have last : (first :: rest).getLast (List.cons_ne_nil _ _) =
        (item :: after).getLast (List.cons_ne_nil _ _) := by
      simp only [place, List.getLast_append_of_ne_nil _ (List.cons_ne_nil item after)]
    rw [last]
    rcases List.mem_cons.mp (List.getLast_mem (List.cons_ne_nil item after)) with same | later
    · rw [same]
    · exact (List.pairwise_cons.mp tail).1 _ later

/-- A descending list is constant once its first key is no larger than its last. -/
theorem constant_of_ends {first : Item} {rest : List Item}
    (sorted : Descending key (first :: rest))
    (ends : key first ≤ key ((first :: rest).getLast (List.cons_ne_nil _ _))) :
    Constant key (first :: rest) := by
  intro one member other alsoMember
  have low := between sorted member
  have high := between sorted alsoMember
  exact le_antisymm (low.1.trans (ends.trans high.2)) (high.1.trans (ends.trans low.2))

theorem ascending_iff_constant (sorted : Descending key items) :
    (items.Pairwise fun earlier later => key earlier ≤ key later) ↔ Constant key items := by
  constructor
  · intro ascending
    cases items with
    | nil => exact constant_short key (Nat.zero_le 1)
    | cons first rest =>
        apply constant_of_ends sorted
        rcases List.mem_cons.mp (List.getLast_mem (List.cons_ne_nil first rest)) with same | later
        · rw [same]
        · exact (List.pairwise_cons.mp ascending).1 _ later
  · intro constant
    apply List.Pairwise.imp_of_mem _ sorted
    intro earlier later member alsoMember _
    exact le_of_eq (constant earlier member later alsoMember)

/-- The first entries of a descending list are the smallest exactly if nothing
is left behind them or all keys are equal. -/
theorem take_smallest_iff {count : Nat} (positive : 0 < count) (sorted : Descending key items) :
    (∀ taken ∈ items.take count, ∀ left ∈ items.drop count, key taken ≤ key left) ↔
      items.length ≤ count ∨ Constant key items := by
  constructor
  · intro smallest
    rcases Nat.lt_or_ge count items.length with more | all
    · right
      cases items with
      | nil => exact constant_short key (Nat.zero_le 1)
      | cons first rest =>
          apply constant_of_ends sorted
          apply smallest
          · obtain ⟨rest_, some_⟩ := Nat.exists_eq_succ_of_ne_zero (Nat.ne_of_gt positive)
            rw [some_, List.take_succ_cons]
            exact List.mem_cons_self
          · have left : (first :: rest).drop count ≠ [] := by
              intro none
              exact absurd (List.drop_eq_nil_iff.mp none) (Nat.not_le_of_gt more)
            rw [← List.getLast_drop left]
            exact List.getLast_mem left
    · exact Or.inl all
  · rintro (all | constant) taken member left alsoMember
    · rw [List.drop_eq_nil_of_le all] at alsoMember
      cases alsoMember
    · exact le_of_eq (constant taken (List.mem_of_mem_take member) left
        (List.mem_of_mem_drop alsoMember))

/-! ## The place of an entry -/

/-- Around a key a descending list has the larger ones before and the smaller ones behind. -/
theorem descending_split (sorted : Descending key items) (middle : Key) :
    items = items.filter (fun item => decide (middle < key item)) ++
      (items.filter (fun item => decide (key item = middle)) ++
        items.filter fun item => decide (key item < middle)) := by
  induction items with
  | nil => rfl
  | cons first rest ih =>
      obtain ⟨heads, tail⟩ := List.pairwise_cons.mp sorted
      have whole := ih tail
      have none_ : ∀ {test : Item → Bool}, (∀ item ∈ rest, test item = false) →
          rest.filter test = [] := fun fails => List.filter_eq_nil_iff.mpr fun item member => by
        rw [fails item member]
        exact Bool.false_ne_true
      rcases lt_trichotomy middle (key first) with larger | same | smaller
      · simpa [List.filter_cons, larger, ne_of_gt larger, not_lt_of_gt larger] using whole
      · have nothing : rest.filter (fun item => decide (middle < key item)) = [] :=
          none_ fun item member => decide_eq_false (not_lt.mpr (same ▸ heads item member))
        rw [nothing, List.nil_append] at whole
        simp only [same, List.filter_cons, lt_irrefl, decide_false, decide_true, ↓reduceIte,
          Bool.false_eq_true] at whole nothing ⊢
        rw [nothing, List.nil_append, List.cons_append, ← whole]
      · have nothing : rest.filter (fun item => decide (middle < key item)) = [] :=
          none_ fun item member =>
            decide_eq_false (not_lt.mpr (le_trans (heads item member) (le_of_lt smaller)))
        have nor : rest.filter (fun item => decide (key item = middle)) = [] :=
          none_ fun item member =>
            decide_eq_false (ne_of_lt (lt_of_le_of_lt (heads item member) smaller))
        rw [nothing, nor, List.nil_append, List.nil_append] at whole
        simpa [List.filter_cons, smaller, ne_of_lt smaller, not_lt_of_gt smaller, nothing, nor]
          using whole

/-- The sort leaves entries of one key in their order. -/
theorem mergeSort_filter_same (items : List Item) (middle : Key) :
    (items.mergeSort fun one other => decide (key other ≤ key one)).filter
      (fun item => decide (key item = middle)) =
        items.filter fun item => decide (key item = middle) := by
  have perm := List.mergeSort_perm items fun one other => decide (key other ≤ key one)
  have level : (items.filter fun item => decide (key item = middle)).Pairwise
      fun one other => decide (key other ≤ key one) = true := by
    refine List.pairwise_of_forall_mem_list fun one member other alsoMember => ?_
    rw [decide_eq_true_iff, of_decide_eq_true (List.mem_filter.mp member).2,
      of_decide_eq_true (List.mem_filter.mp alsoMember).2]
  have kept := List.sublist_mergeSort (fun one middle other first second => by
      rw [decide_eq_true_iff] at first second ⊢
      exact le_trans second first)
    (fun one other => by
      rw [Bool.or_eq_true, decide_eq_true_iff, decide_eq_true_iff]
      exact le_total _ _) level List.filter_sublist
  have both := kept.filter fun item => decide (key item = middle)
  simp only [List.filter_filter, Bool.and_self] at both
  exact (both.eq_of_length (perm.filter _).length_eq.symm).symm

theorem mem_take_append {item : Item} {before after : List Item} (absent : item ∉ before)
    (count : Nat) : item ∈ (before ++ item :: after).take count ↔ before.length < count := by
  rcases Nat.lt_or_ge before.length count with more | few
  · obtain ⟨rest, same⟩ := Nat.exists_eq_add_of_lt more
    rw [same, Nat.add_assoc, List.take_length_add_append, List.take_succ_cons]
    exact iff_of_true (List.mem_append_right _ List.mem_cons_self) (by omega)
  · rw [List.take_append_of_le_length few]
    exact iff_of_false (fun member => absent (List.mem_of_mem_take member)) (by omega)

/-- How many entries the sort puts before one: the larger, and those as large before it. -/
def placeOf [DecidableEq Item] (key : Item → Key) (items : List Item) (item : Item) : Nat :=
  (items.filter fun other => decide (key item < key other)).length +
    ((items.takeWhile fun other => decide (other ≠ item)).filter fun other =>
      decide (key other = key item)).length

theorem mem_take_mergeSort_iff [DecidableEq Item] {item : Item} (member : item ∈ items)
    (count : Nat) :
    item ∈ (items.mergeSort fun one other => decide (key other ≤ key one)).take count ↔
      placeOf key items item < count := by
  have sorted := mergeSort_descending key items
  have perm := List.mergeSort_perm items fun one other => decide (key other ≤ key one)
  have level : (items.mergeSort fun one other => decide (key other ≤ key one)).filter
      (fun other => decide (key other = key item)) =
        items.filter fun other => decide (key other = key item) :=
    mergeSort_filter_same items (key item)
  generalize items.mergeSort _ = all at sorted perm level
  obtain ⟨before, after, place, absent⟩ := List.eq_append_cons_of_mem member
  have first : items.takeWhile (fun other => decide (other ≠ item)) = before := by
    rw [place, List.takeWhile_append_of_pos, List.takeWhile_cons_of_neg, List.append_nil]
    · simp
    · intro other inside
      exact decide_eq_true fun same => absent (same ▸ inside)
  have around : (items.filter fun other => decide (key other = key item)) =
      (before.filter fun other => decide (key other = key item)) ++
        item :: after.filter fun other => decide (key other = key item) := by
    rw [place, List.filter_append, List.filter_cons_of_pos (by simp)]
  have split := descending_split sorted (key item)
  rw [level, around, List.append_assoc, List.cons_append, ← List.append_assoc] at split
  have larger : (all.filter fun other => decide (key item < key other)).length =
      (items.filter fun other => decide (key item < key other)).length :=
    (perm.filter _).length_eq
  rw [split, mem_take_append, List.length_append, larger, placeOf, first]
  rw [List.mem_append, not_or]
  refine ⟨fun inside => ?_, fun inside => absent (List.mem_filter.mp inside).1⟩
  exact absurd (of_decide_eq_true (List.mem_filter.mp inside).2) (lt_irrefl _)

end Telehash.KeyOrder
