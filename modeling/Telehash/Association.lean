import Mathlib.Data.List.Nodup
import Mathlib.Data.List.Perm.Basic

/-!
Association dictionaries with one entry for each key, kept in insertion order.
Replacing a value keeps the position of its key, as an observer that
enumerates the dictionary would see it. The laws are stated for arbitrary
keys and values.
-/

namespace Telehash.Association

variable {Key Value : Type}

section Entries
variable [DecidableEq Key]

def find : List (Key × Value) → Key → Option Value
  | [], _ => none
  | entry :: rest, key => if entry.1 = key then some entry.2 else find rest key

def put : List (Key × Value) → Key → Value → List (Key × Value)
  | [], key, value => [(key, value)]
  | entry :: rest, key, value =>
      if entry.1 = key then (key, value) :: rest else entry :: put rest key value

def drop (entries : List (Key × Value)) (key : Key) : List (Key × Value) :=
  entries.filter fun entry => entry.1 ≠ key

theorem put_keys (entries : List (Key × Value)) (key : Key) (value : Value) :
    (put entries key value).map Prod.fst =
      if key ∈ entries.map Prod.fst then entries.map Prod.fst
      else entries.map Prod.fst ++ [key] := by
  induction entries with
  | nil => simp [put]
  | cons entry rest ih =>
      by_cases same : entry.1 = key
      · simp [put, same]
      · have other : key ≠ entry.1 := fun equal => same equal.symm
        simp only [put, same, ↓reduceIte, List.map_cons, ih, List.mem_cons, other, false_or]
        split <;> simp

theorem put_new (entries : List (Key × Value)) (key : Key) (value : Value)
    (absent : key ∉ entries.map Prod.fst) : put entries key value = entries ++ [(key, value)] := by
  induction entries with
  | nil => rfl
  | cons entry rest ih =>
      rw [List.map_cons, List.mem_cons, not_or] at absent
      simp only [put, Ne.symm absent.1, ↓reduceIte, List.cons_append, ih absent.2]

theorem put_unique (entries : List (Key × Value)) (key : Key) (value : Value)
    (unique : (entries.map Prod.fst).Nodup) :
    ((put entries key value).map Prod.fst).Nodup := by
  rw [put_keys]
  split
  · exact unique
  · rename_i absent
    exact List.Nodup.append unique (List.nodup_singleton key)
      (by simpa [List.disjoint_singleton] using absent)

theorem drop_unique (entries : List (Key × Value)) (key : Key)
    (unique : (entries.map Prod.fst).Nodup) :
    ((drop entries key).map Prod.fst).Nodup :=
  unique.sublist (List.filter_sublist.map Prod.fst)

theorem find_put_same (entries : List (Key × Value)) (key : Key) (value : Value) :
    find (put entries key value) key = some value := by
  induction entries with
  | nil => simp [put, find]
  | cons entry rest ih =>
      by_cases same : entry.1 = key <;> simp [put, find, same, ih]

theorem find_put_other (entries : List (Key × Value)) (key other : Key) (value : Value)
    (different : other ≠ key) :
    find (put entries key value) other = find entries other := by
  induction entries with
  | nil => simp [put, find, different.symm]
  | cons entry rest ih =>
      by_cases same : entry.1 = key
      · simp [put, find, same, different.symm]
      · simp [put, find, same, ih]

theorem find_drop_same (entries : List (Key × Value)) (key : Key) :
    find (drop entries key) key = none := by
  induction entries with
  | nil => rfl
  | cons entry rest ih =>
      by_cases same : entry.1 = key
      · simpa [drop, same] using ih
      · simpa [drop, same, find] using ih

theorem find_drop_other (entries : List (Key × Value)) (key other : Key)
    (different : other ≠ key) : find (drop entries key) other = find entries other := by
  induction entries with
  | nil => rfl
  | cons entry rest ih =>
      by_cases same : entry.1 = key
      · have skipped : ¬ key = other := fun equal => different equal.symm
        simpa [drop, same, find, skipped] using ih
      · have step : find (entry :: drop rest key) other = find (entry :: rest) other := by
          simp only [find, ih]
        simpa [drop, same] using step

theorem find_some_iff (entries : List (Key × Value)) (key : Key) (value : Value)
    (unique : (entries.map Prod.fst).Nodup) :
    find entries key = some value ↔ (key, value) ∈ entries := by
  induction entries with
  | nil => simp [find]
  | cons entry rest ih =>
      have tail := (List.nodup_cons.mp unique).2
      have fresh := (List.nodup_cons.mp unique).1
      by_cases same : entry.1 = key
      · subst same
        have absent : (entry.1, value) ∉ rest :=
          fun member => fresh (List.mem_map.mpr ⟨_, member, rfl⟩)
        simp [find, absent, Prod.ext_iff, eq_comm]
      · have other : (key, value) ≠ entry := fun equal => same (by rw [← equal])
        simp [find, same, ih tail, other]

end Entries

/-- A dictionary whose keys are pairwise distinct. -/
structure Dictionary (Key Value : Type) where
  entries : List (Key × Value)
  unique : (entries.map Prod.fst).Nodup

@[ext] theorem Dictionary.ext {left right : Dictionary Key Value}
    (same : left.entries = right.entries) : left = right := by
  cases left; cases right; cases same; rfl

variable [DecidableEq Key]

def Dictionary.empty : Dictionary Key Value := ⟨[], List.nodup_nil⟩

def Dictionary.single (key : Key) (value : Value) : Dictionary Key Value :=
  ⟨[(key, value)], List.nodup_singleton key⟩

def Dictionary.lookup (dictionary : Dictionary Key Value) (key : Key) : Option Value :=
  find dictionary.entries key

def Dictionary.insert (dictionary : Dictionary Key Value) (key : Key) (value : Value) :
    Dictionary Key Value :=
  ⟨put dictionary.entries key value, put_unique _ key value dictionary.unique⟩

def Dictionary.erase (dictionary : Dictionary Key Value) (key : Key) : Dictionary Key Value :=
  ⟨drop dictionary.entries key, drop_unique _ key dictionary.unique⟩

def Dictionary.count (dictionary : Dictionary Key Value) : Nat := dictionary.entries.length

def Dictionary.keys (dictionary : Dictionary Key Value) : List Key :=
  dictionary.entries.map Prod.fst

variable (dictionary : Dictionary Key Value) (key other : Key) (value : Value)

@[simp] theorem lookup_empty :
    (Dictionary.empty : Dictionary Key Value).lookup key = none := rfl

@[simp] theorem lookup_single_same : (Dictionary.single key value).lookup key = some value := by
  simp [Dictionary.single, Dictionary.lookup, find]

@[simp] theorem lookup_insert_same : (dictionary.insert key value).lookup key = some value :=
  find_put_same _ key value

theorem lookup_insert_other (different : other ≠ key) :
    (dictionary.insert key value).lookup other = dictionary.lookup other :=
  find_put_other _ key other value different

@[simp] theorem lookup_erase_same : (dictionary.erase key).lookup key = none :=
  find_drop_same _ key

theorem lookup_erase_other (different : other ≠ key) :
    (dictionary.erase key).lookup other = dictionary.lookup other :=
  find_drop_other _ key other different

/-- A lookup after an insertion, by cases on the key. -/
theorem lookup_insert : (dictionary.insert key value).lookup other =
    if other = key then some value else dictionary.lookup other := by
  split
  · rename_i same
    rw [same]
    exact lookup_insert_same dictionary key value
  · rename_i different
    exact lookup_insert_other dictionary key other value different

theorem lookup_erase : (dictionary.erase key).lookup other =
    if other = key then none else dictionary.lookup other := by
  split
  · rename_i same
    rw [same]
    exact lookup_erase_same dictionary key
  · rename_i different
    exact lookup_erase_other dictionary key other different

theorem lookup_some_iff :
    dictionary.lookup key = some value ↔ (key, value) ∈ dictionary.entries :=
  find_some_iff _ key value dictionary.unique

theorem mem_keys_iff : key ∈ dictionary.keys ↔ (dictionary.lookup key).isSome := by
  rw [Option.isSome_iff_exists, Dictionary.keys, List.mem_map]
  constructor
  · rintro ⟨⟨_, value⟩, member, rfl⟩
    exact ⟨value, (lookup_some_iff _ _ _).mpr member⟩
  · rintro ⟨value, found⟩
    exact ⟨_, (lookup_some_iff _ _ _).mp found, rfl⟩

omit [DecidableEq Key] in
theorem count_zero_iff : dictionary.count = 0 ↔ dictionary = Dictionary.empty := by
  constructor
  · intro none
    exact Dictionary.ext (List.length_eq_zero_iff.mp none)
  · intro same
    rw [same]; rfl

end Telehash.Association
