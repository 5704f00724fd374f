import Telehash.HashChain
import Telehash.HexString
import Telehash.MeshBuckets

/-!
`hashnameForParts:` of THIdentity.m, with the order its keys are sorted in left
open. The parts are hashed in a chain, so where the hash separates what is put
into it, a hashname stands for one dictionary of parts alone.
-/

namespace Telehash.PartsHash
open Association Foundation Identity CipherSet HexString HashChain
open MeshBuckets (NSComparisonResult)

/-- `compare:` of two strings. -/
abbrev Comparison := String → String → NSComparisonResult

section Source
variable (sha256 : Data → Data) (compare : Comparison)

/-- `sortedArrayUsingSelector:` -/
def sortedArray (keys : List String) : List String :=
  keys.mergeSort fun one other => compare one other ≠ .orderedDescending

def hashnameForParts : Option Parts → String
  | none => hexString []
  | some parts => hexString ((sortedArray compare parts.keys).foldl (hashPart sha256 parts) [])

end Source

/-- Of distinct keys one comes before the other, and the order is transitive. -/
structure OrdersKeys (compare : Comparison) (keys : List String) : Prop where
  same : ∀ one ∈ keys, compare one one = .orderedSame
  total : ∀ one ∈ keys, ∀ other ∈ keys, one ≠ other →
    compare one other = .orderedAscending ∧ compare other one = .orderedDescending ∨
      compare one other = .orderedDescending ∧ compare other one = .orderedAscending
  trans : ∀ one ∈ keys, ∀ middle ∈ keys, ∀ other ∈ keys, compare one middle = .orderedAscending →
    compare middle other = .orderedAscending → compare one other = .orderedAscending

/-! ## The order of the keys -/

section Order
variable {compare : Comparison} {keys others : List String}

theorem OrdersKeys.subset (orders : OrdersKeys compare keys) (inside : others ⊆ keys) :
    OrdersKeys compare others where
  same := fun one member => orders.same one (inside member)
  total := fun one member other alsoMember =>
    orders.total one (inside member) other (inside alsoMember)
  trans := fun one first middle second other third =>
    orders.trans one (inside first) middle (inside second) other (inside third)

/-- Two keys that both come no later than the other are one. -/
theorem OrdersKeys.antisymm (orders : OrdersKeys compare keys) {one other : String}
    (member : one ∈ keys) (alsoMember : other ∈ keys)
    (before : compare one other ≠ .orderedDescending)
    (after : compare other one ≠ .orderedDescending) : one = other := by
  by_contra different
  rcases orders.total one member other alsoMember different with ⟨_, later⟩ | ⟨earlier, _⟩
  · exact after later
  · exact before earlier

theorem OrdersKeys.trans_le (orders : OrdersKeys compare keys) {one middle other : String}
    (first : one ∈ keys) (second : middle ∈ keys) (third : other ∈ keys)
    (before : compare one middle ≠ .orderedDescending)
    (after : compare middle other ≠ .orderedDescending) :
    compare one other ≠ .orderedDescending := by
  by_cases same : one = middle
  · rw [same]
    exact after
  · by_cases alsoSame : middle = other
    · rw [← alsoSame]
      exact before
    · have ascends : ∀ {left right}, left ∈ keys → right ∈ keys → left ≠ right →
          compare left right ≠ .orderedDescending → compare left right = .orderedAscending := by
        intro left right inside alsoInside different low
        rcases orders.total left inside right alsoInside different with ⟨up, _⟩ | ⟨down, _⟩
        · exact up
        · exact absurd down low
      rw [orders.trans one first middle second other third (ascends first second same before)
        (ascends second third alsoSame after)]
      exact NSComparisonResult.noConfusion

theorem sortedArray_pairwise (orders : OrdersKeys compare keys) :
    (sortedArray compare keys).Pairwise fun one other =>
      compare one other ≠ .orderedDescending := by
  -- the sort looks at the keys alone, and these are ordered
  have sorted := @List.pairwise_mergeSort { key // key ∈ keys }
    (fun one other => compare one.val other.val ≠ .orderedDescending)
    (fun one middle other before after => by
      rw [decide_eq_true_iff] at before after ⊢
      exact orders.trans_le one.property middle.property other.property before after)
    (fun one other => by
      rw [Bool.or_eq_true, decide_eq_true_iff, decide_eq_true_iff]
      by_cases equal : one.val = other.val
      · rw [equal, orders.same other.val other.property]
        exact Or.inl NSComparisonResult.noConfusion
      · rcases orders.total one.val one.property other.val other.property equal with
          ⟨up, _⟩ | ⟨_, up⟩ <;> rw [up]
        · exact Or.inl NSComparisonResult.noConfusion
        · exact Or.inr NSComparisonResult.noConfusion)
    keys.attach
  have same : (keys.attach.mergeSort fun one other =>
      compare one.val other.val ≠ .orderedDescending).map Subtype.val =
        sortedArray compare keys := by
    have mapped := @List.map_mergeSort { key // key ∈ keys } String
      (fun one other => compare one.val other.val ≠ .orderedDescending)
      (fun one other => compare one other ≠ .orderedDescending) Subtype.val keys.attach
      fun _ _ _ _ => rfl
    rw [mapped, List.attach_map_subtype_val, sortedArray]
  rw [← same, List.pairwise_map]
  exact sorted.imp fun ordered => of_decide_eq_true ordered

theorem sortedArray_perm (compare : Comparison) (keys : List String) :
    (sortedArray compare keys).Perm keys :=
  List.mergeSort_perm _ _

/-- The keys are hashed in one order, whatever order they are listed in. -/
theorem sortedArray_congr (orders : OrdersKeys compare keys) (same : keys.Perm others) :
    sortedArray compare keys = sortedArray compare others := by
  have perm : (sortedArray compare keys).Perm (sortedArray compare others) :=
    (sortedArray_perm compare keys).trans (same.trans (sortedArray_perm compare others).symm)
  refine perm.eq_of_pairwise ?_ (sortedArray_pairwise orders)
    (sortedArray_pairwise (orders.subset same.symm.subset))
  intro one other member alsoMember before after
  exact orders.antisymm ((sortedArray_perm compare keys).mem_iff.mp member)
    (same.mem_iff.mpr ((sortedArray_perm compare others).mem_iff.mp alsoMember)) before after

end Order

/-! ## The entries -/

theorem utf8_injective {one other : String} (same : utf8 one = utf8 other) : one = other := by
  exact String.toByteArray_inj.mp (ByteArray.ext (Array.toList_inj.mp same))

/-- What is hashed for an entry. -/
def encoded (entry : String × String) : Data × Data := (utf8 entry.1, utf8 entry.2)

theorem encoded_injective : Function.Injective encoded := by
  intro one other same
  rw [encoded, encoded, Prod.mk.injEq] at same
  exact Prod.ext (utf8_injective same.1) (utf8_injective same.2)

def sortedEntries (compare : Comparison) (parts : Parts) : List (String × String) :=
  (sortedArray compare parts.keys).map fun key => (key, (parts.lookup key).getD "")

/-- All that goes through the hash for some parts. -/
def hashedTexts (sha256 : Data → Data) (compare : Comparison) (parts : Parts) : List Data :=
  inputs sha256 ((sortedEntries compare parts).map encoded)

section Entries
variable (sha256 : Data → Data) (compare : Comparison)

theorem hashnameForParts_chain (parts : Parts) :
    hashnameForParts sha256 compare (some parts) =
      hexString (chain sha256 ((sortedEntries compare parts).map encoded)) := by
  rw [hashnameForParts, chain, sortedEntries, List.map_map, List.foldl_map]
  rfl

theorem sortedEntries_perm (parts : Parts) :
    (sortedEntries compare parts).Perm parts.entries := by
  have own : (parts.keys.map fun key => (key, (parts.lookup key).getD "")) = parts.entries := by
    rw [Dictionary.keys, List.map_map]
    calc parts.entries.map _ = parts.entries.map id := by
          apply List.map_congr_left
          intro entry member
          have found : parts.lookup entry.1 = some entry.2 :=
            (lookup_some_iff _ _ _).mpr member
          simp only [Function.comp_apply, found, Option.getD_some, id_eq]
      _ = parts.entries := List.map_id _
  have perm := (sortedArray_perm compare parts.keys).map fun key =>
    (key, (parts.lookup key).getD "")
  rwa [own] at perm

variable {compare}

theorem sortedEntries_congr {one two : Parts} (orders : OrdersKeys compare one.keys)
    (same : one.entries.Perm two.entries) :
    sortedEntries compare one = sortedEntries compare two := by
  have keys : sortedArray compare one.keys = sortedArray compare two.keys :=
    sortedArray_congr orders (same.map Prod.fst)
  have lookups : ∀ key, one.lookup key = two.lookup key := by
    intro key
    apply Option.ext
    intro value
    rw [lookup_some_iff, lookup_some_iff, same.mem_iff]
  rw [sortedEntries, sortedEntries, keys]
  simp only [lookups]

end Entries

theorem hexString_injective {one other : Data} (same : hexString one = hexString other) :
    one = other := by
  rw [← dataFromHexString_hexString one, same, dataFromHexString_hexString]

/-- With a hash of 32 bytes that separates what is put into it, and keys shorter
than that: a hashname does not depend on the order the parts are listed in, it
has 64 lower-case digits if there are parts, and it stands for these parts alone. -/
theorem hashnames_identify_parts (sha256 : Data → Data) (compare : Comparison) (one two : Parts)
    (digest : ∀ data, (sha256 data).length = 32)
    (separates : Separates sha256
      (hashedTexts sha256 compare one ++ hashedTexts sha256 compare two))
    (orders : OrdersKeys compare one.keys)
    (short : ∀ key ∈ one.keys ++ two.keys, (utf8 key).length < 32) :
    (one.entries ≠ [] → LowerCaseHex (hashnameForParts sha256 compare (some one)) ∧
      (hashnameForParts sha256 compare (some one)).length = 64) ∧
    (hashnameForParts sha256 compare (some one) = hashnameForParts sha256 compare (some two) ↔
      one.entries.Perm two.entries) := by
  have onePerm := sortedEntries_perm compare one
  have twoPerm := sortedEntries_perm compare two
  rw [hashnameForParts_chain, hashnameForParts_chain]
  constructor
  · intro filled
    have some_ : (sortedEntries compare one).map encoded ≠ [] := by
      intro none
      rw [List.map_eq_nil_iff] at none
      rw [none] at onePerm
      exact filled onePerm.symm.eq_nil
    refine ⟨lowerCaseHex_hexString _, ?_⟩
    rw [length_hexString, length_chain digest, if_neg some_]
  · constructor
    · intro same
      have shortPairs : ∀ pair ∈ (sortedEntries compare one).map encoded ++
          (sortedEntries compare two).map encoded, pair.1.length < 32 := by
        intro pair member
        rw [← List.map_append, List.mem_map] at member
        obtain ⟨entry, inside, rfl⟩ := member
        apply short entry.1
        rcases List.mem_append.mp inside with here | here
        · exact List.mem_append_left _ (List.mem_map_of_mem (onePerm.mem_iff.mp here))
        · exact List.mem_append_right _ (List.mem_map_of_mem (twoPerm.mem_iff.mp here))
      have pairs := chain_injective digest separates shortPairs (hexString_injective same)
      have entries := encoded_injective.list_map pairs
      rw [entries] at onePerm
      exact onePerm.symm.trans twoPerm
    · intro same
      rw [sortedEntries_congr orders same]

/-! ## A literal comparison -/

/-- A comparison of the code points, one by one. -/
def literalCompare : Comparison := fun one other =>
  if one < other then .orderedAscending
  else if one = other then .orderedSame
  else .orderedDescending

theorem literalCompare_le (one other : String) :
    literalCompare one other ≠ .orderedDescending ↔ one ≤ other := by
  unfold literalCompare
  rcases lt_trichotomy one other with before | same | after
  · simp [before, before.le]
  · simp [same]
  · simp [not_lt.mpr after.le, after.ne', after]

theorem ordersKeys_literal (keys : List String) : OrdersKeys literalCompare keys where
  same := by
    intro one _
    simp [literalCompare]
  total := by
    intro one _ other _ different
    rcases lt_or_gt_of_ne different with before | after
    · simp [literalCompare, before, not_lt.mpr before.le, different.symm]
    · simp [literalCompare, after, not_lt.mpr after.le, different]
  trans := by
    have ascending : ∀ one other, literalCompare one other = .orderedAscending ↔ one < other := by
      intro one other
      unfold literalCompare
      by_cases before : one < other
      · simp [before]
      · by_cases same : one = other <;> simp [before, same]
    intro one _ middle _ other _ before after
    rw [ascending] at before after ⊢
    exact before.trans after

/-- The model of the other modules sorts the keys by their code points. -/
theorem hashnameForParts_literal (sha256 : Data → Data) :
    hashnameForParts sha256 literalCompare = Identity.hashnameForParts sha256 := by
  funext parts
  cases parts with
  | none => rfl
  | some parts =>
      have sorted : sortedArray literalCompare parts.keys = sortedKeys parts := by
        simp only [sortedArray, literalCompare_le]
        exact List.mergeSort_eq_insertionSort (· ≤ ·) parts.keys
      rw [hashnameForParts, sorted]
      rfl

/-! Two dictionaries of one part, and SHA-256 of what is hashed for them. -/

def partsOf2a : Parts := .single "2a" "ab"

def partsOf3a : Parts := .single "3a" "ab"

def sha256Table : List (Data × Data) :=
  let digestOf2a :=
    dataFromHexString "b2239ae33d9bc5614aeb2e439e5032b1fe77c32f7080d3211c1d03f1b17ffcf6"
  let digestOf3a :=
    dataFromHexString "f2cd852e505f1084fe70fea3c0f4d577df89414bd356f43c7ae3a29e9e628553"
  [(utf8 "2a", digestOf2a), (utf8 "3a", digestOf3a),
    (digestOf2a ++ utf8 "ab",
      dataFromHexString "ca188d924747671d3998aa7c57c78d84341f9a1020013cdeb922f814e570e337"),
    (digestOf3a ++ utf8 "ab",
      dataFromHexString "9bf8abaa9ea5b9b37f8d409a4aedb18c002b945ba59dc1c015393c754fa9a08d")]

/-- A hash known on the texts of a table. -/
def hashOf (table : List (Data × Data)) (data : Data) : Data :=
  ((table.find? fun entry => entry.1 = data).map Prod.snd).getD (List.replicate 32 0)

theorem length_sha256Known (data : Data) : (hashOf sha256Table data).length = 32 := by
  have digests : ∀ entry ∈ sha256Table, entry.2.length = 32 := by decide +kernel
  unfold hashOf
  cases found : sha256Table.find? fun entry => entry.1 = data with
  | none => rfl
  | some entry => exact digests entry (List.mem_of_find?_eq_some found)

theorem hashedTexts_single (sha256 : Data → Data) (compare : Comparison) (key value : String) :
    hashedTexts sha256 compare (.single key value) =
      [utf8 key, sha256 (utf8 key) ++ utf8 value] := by
  have keys : sortedArray compare (Dictionary.single key value : Parts).keys = [key] :=
    List.mergeSort_singleton key
  simp [hashedTexts, sortedEntries, keys, inputs, inputsFrom, encoded]

theorem cipher_set_ids_told_apart :
    (hashnameForParts (hashOf sha256Table) literalCompare (some partsOf2a)).length = 64 ∧
      hashnameForParts (hashOf sha256Table) literalCompare (some partsOf2a) ≠
        hashnameForParts (hashOf sha256Table) literalCompare (some partsOf3a) := by
  obtain ⟨digits, told⟩ := hashnames_identify_parts (hashOf sha256Table) literalCompare partsOf2a
    partsOf3a length_sha256Known
    (by
      rw [partsOf2a, partsOf3a, hashedTexts_single, hashedTexts_single]
      unfold Separates
      decide +kernel)
    (ordersKeys_literal _) (by decide +kernel)
  refine ⟨(digits (List.cons_ne_nil _ _)).2, ?_⟩
  rw [Ne, told]
  decide +kernel

end Telehash.PartsHash
