import Mathlib.Data.List.Flatten
import Mathlib.Data.List.Forall2
import Mathlib.Data.List.Nodup

/-!
A table of buckets in which each key has one home. A search of the home bucket
alone then shows whether a key occurs anywhere, so an insertion that makes it
keeps all keys of the table apart.
-/

namespace Telehash.Buckets

variable {Item Key : Type} (key : Item → Key) (home : Key → Nat)

def AtHome (buckets : List (List Item)) : Prop :=
  ∀ index bucket, buckets[index]? = some bucket → ∀ item ∈ bucket, home (key item) = index

def Distinct (buckets : List (List Item)) : Prop := (buckets.flatten.map key).Nodup

/-- Bucket by bucket something may have been left out. -/
def Reduced (after before : List (List Item)) : Prop :=
  List.Forall₂ (fun fewer bucket => fewer.Sublist bucket) after before

variable {key home} {buckets after before : List (List Item)}

theorem reduced_refl (buckets : List (List Item)) : Reduced buckets buckets :=
  List.forall₂_same.mpr fun bucket _ => List.Sublist.refl bucket

theorem Reduced.trans {middle : List (List Item)} (later : Reduced after middle)
    (earlier : Reduced middle before) : Reduced after before := by
  unfold Reduced at later earlier ⊢
  induction later generalizing before with
  | nil => exact earlier
  | cons fewer _ ih =>
      cases earlier with
      | cons bucket rest => exact .cons (fewer.trans bucket) (ih rest)

theorem reduced_set {index : Nat} {bucket fewer : List Item}
    (found : buckets[index]? = some bucket) (sublist : fewer.Sublist bucket) :
    Reduced (buckets.set index fewer) buckets := by
  induction buckets generalizing index with
  | nil => simp at found
  | cons first rest ih =>
      cases index with
      | zero =>
          cases found
          exact .cons sublist (reduced_refl rest)
      | succ index => exact .cons (List.Sublist.refl first) (ih found)

theorem Reduced.flatten (reduced : Reduced after before) :
    after.flatten.Sublist before.flatten := by
  unfold Reduced at reduced
  induction reduced with
  | nil => exact List.Sublist.refl _
  | cons fewer _ ih => exact fewer.append ih

theorem Reduced.atHome (reduced : Reduced after before) (placed : AtHome key home before) :
    AtHome key home after := by
  intro index bucket found item member
  have lengths := reduced.length_eq
  obtain ⟨inside, same⟩ := List.getElem?_eq_some_iff.mp found
  have fewer := List.Forall₂.get reduced inside (lengths ▸ inside)
  rw [List.get_eq_getElem, List.get_eq_getElem, same] at fewer
  exact placed index _ (List.getElem?_eq_getElem (lengths ▸ inside)) item (fewer.subset member)

theorem Reduced.distinct (reduced : Reduced after before) (distinct : Distinct key before) :
    Distinct key after :=
  List.Nodup.sublist (reduced.flatten.map key) distinct

theorem mem_flatten_of_found {index : Nat} {bucket : List Item} {item : Item}
    (found : buckets[index]? = some bucket) (member : item ∈ bucket) : item ∈ buckets.flatten :=
  List.mem_flatten.mpr ⟨bucket, List.mem_of_getElem? found, member⟩

theorem bucket_of_entry {index idx : Nat} {item : Item}
    (entry : (buckets.getD index [])[idx]? = some item) :
    ∃ bucket, buckets[index]? = some bucket ∧ bucket[idx]? = some item := by
  rw [List.getD_eq_getElem?_getD] at entry
  cases found : buckets[index]? with
  | none => simp [found] at entry
  | some bucket => exact ⟨bucket, rfl, by rwa [found] at entry⟩

/-- Two entries with one key are in one bucket. -/
theorem AtHome.same_bucket (placed : AtHome key home buckets) {item : Item}
    (member : item ∈ buckets.flatten) : ∃ bucket,
      buckets[home (key item)]? = some bucket ∧ item ∈ bucket := by
  obtain ⟨bucket, inside, member⟩ := List.mem_flatten.mp member
  obtain ⟨index, found⟩ := List.getElem?_of_mem inside
  exact ⟨bucket, by rw [placed index bucket found item member]; exact found, member⟩

theorem set_append_perm {index : Nat} {bucket : List Item} (item : Item)
    (found : buckets[index]? = some bucket) :
    (buckets.set index (bucket ++ [item])).flatten.Perm (item :: buckets.flatten) := by
  induction buckets generalizing index with
  | nil => simp at found
  | cons first rest ih =>
      cases index with
      | zero =>
          cases found
          simp only [List.set_cons_zero, List.flatten_cons, List.append_assoc,
            List.singleton_append]
          exact List.perm_middle
      | succ index =>
          simp only [List.set_cons_succ, List.flatten_cons]
          exact ((ih found).append_left first).trans List.perm_middle

/-- An item added to its home leaves every item in its own. -/
theorem atHome_add {bucket : List Item} {item : Item} (placed : AtHome key home buckets)
    (found : buckets[home (key item)]? = some bucket) :
    AtHome key home (buckets.set (home (key item)) (bucket ++ [item])) := by
  intro index changed place other member
  rw [List.getElem?_set] at place
  split at place
  · rename_i same
    subst same
    split at place
    · cases place
      rcases List.mem_append.mp member with old | new
      · exact placed _ bucket found other old
      · rw [List.mem_singleton.mp new]
    · cases place
  · exact placed index changed place other member

/-- The scan of one bucket keeps every two keys of the table apart. -/
theorem distinct_add {bucket : List Item} {item : Item} (placed : AtHome key home buckets)
    (distinct : Distinct key buckets) (found : buckets[home (key item)]? = some bucket)
    (new : ∀ other ∈ bucket, key other ≠ key item) :
    Distinct key (buckets.set (home (key item)) (bucket ++ [item])) := by
  have perm := (set_append_perm item found).map key
  refine perm.nodup_iff.mpr (List.nodup_cons.mpr ⟨?_, distinct⟩)
  intro member
  obtain ⟨other, inside, same⟩ := List.mem_map.mp member
  obtain ⟨home_, place, inHome⟩ := placed.same_bucket inside
  rw [same, found] at place
  cases place
  exact new other inHome same

/-- Leaving out the entry at some place of a bucket leaves it out of the table,
and nothing else. -/
theorem eraseIdx_filter [DecidableEq Item] {index place : Nat} {bucket : List Item} {item : Item}
    (placed : AtHome key home buckets) (distinct : Distinct key buckets)
    (found : buckets[index]? = some bucket) (entry : bucket[place]? = some item) (other : Nat) :
    (buckets.set index (bucket.eraseIdx place))[other]? =
      buckets[other]?.map fun bucket => bucket.filter fun left => left ≠ item := by
  obtain ⟨inside, same⟩ := List.getElem?_eq_some_iff.mp entry
  by_cases here : index = other
  · subst here
    have single : bucket.Nodup :=
      (distinct.of_map key).sublist (List.sublist_flatten_of_mem (List.mem_of_getElem? found))
    rw [List.getElem?_set_self (List.getElem?_eq_some_iff.mp found).1, found, Option.map_some,
      ← single.erase_getElem place inside, same, single.erase_eq_filter]
    congr 2
    funext left
    by_cases equal : left = item <;> simp [equal]
  · rw [List.getElem?_set_ne here]
    cases elsewhere : buckets[other]? with
    | none => rfl
    | some left =>
        rw [Option.map_some, eq_comm, Option.some.injEq, List.filter_eq_self]
        intro kept member
        apply decide_eq_true
        intro equal
        subst equal
        have one := placed other left elsewhere kept member
        rw [placed index bucket found kept (List.mem_of_getElem? entry)] at one
        exact here one

/-! ## Sizes -/

/-- The items beyond a size, over all buckets. -/
def overflow (size : Nat) : List (List Item) → Nat
  | [] => 0
  | bucket :: rest => bucket.length - size + overflow size rest

variable {size : Nat}

theorem overflow_le : overflow size buckets ≤ buckets.flatten.length := by
  induction buckets with
  | nil => exact Nat.le_refl _
  | cons bucket rest ih =>
      simp only [overflow, List.flatten_cons, List.length_append] at ih ⊢
      omega

theorem length_flatten_le :
    buckets.flatten.length ≤ overflow size buckets + buckets.length * size := by
  induction buckets with
  | nil => exact Nat.zero_le _
  | cons bucket rest ih =>
      simp only [overflow, List.flatten_cons, List.length_append, List.length_cons,
        Nat.succ_mul] at ih ⊢
      omega

theorem Reduced.overflow_le (reduced : Reduced after before) :
    overflow size after ≤ overflow size before := by
  unfold Reduced at reduced
  induction reduced with
  | nil => exact Nat.le_refl _
  | cons fewer _ ih =>
      have shorter := fewer.length_le
      simp only [overflow] at ih ⊢
      omega

/-- An item added to a bucket with room adds nothing to the overflow. -/
theorem overflow_set_append {index : Nat} {bucket : List Item} (item : Item)
    (found : buckets[index]? = some bucket) :
    overflow size (buckets.set index (bucket ++ [item])) =
      overflow size buckets + if bucket.length < size then 0 else 1 := by
  induction buckets generalizing index with
  | nil => simp at found
  | cons first rest ih =>
      cases index with
      | zero =>
          cases found
          simp only [overflow, List.set_cons_zero, List.length_append, List.length_singleton]
          split <;> omega
      | succ index =>
          have later := ih found
          simp only [overflow, List.set_cons_succ] at later ⊢
          omega

end Telehash.Buckets
