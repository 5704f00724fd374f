import Mathlib.Data.List.Induction

/-!
A hash chained over pairs of texts: each pair takes two hashes, the first over
the digest so far and the first text, the second over the new digest and the
second text. Nothing frames the texts and nothing is there to start from; still
the last digest tells all pairs, as long as first texts are shorter than a
digest.
-/

namespace Telehash.HashChain

variable {Byte : Type} (hash : List Byte → List Byte)

def absorb (buffer : List Byte) (pair : List Byte × List Byte) : List Byte :=
  hash (hash (buffer ++ pair.1) ++ pair.2)

def chain (pairs : List (List Byte × List Byte)) : List Byte := pairs.foldl (absorb hash) []

/-- What is hashed on the way from some digest. -/
def inputsFrom : (buffer : List Byte) → List (List Byte × List Byte) → List (List Byte)
  | _, [] => []
  | buffer, pair :: rest =>
      (buffer ++ pair.1) :: (hash (buffer ++ pair.1) ++ pair.2) ::
        inputsFrom (absorb hash buffer pair) rest

def inputs (pairs : List (List Byte × List Byte)) : List (List Byte) := inputsFrom hash [] pairs

/-- No two of some texts have one digest. -/
def Separates (texts : List (List Byte)) : Prop :=
  ∀ one ∈ texts, ∀ other ∈ texts, hash one = hash other → one = other

variable {hash}

theorem Separates.subset {texts fewer : List (List Byte)} (separates : Separates hash texts)
    (inside : fewer ⊆ texts) : Separates hash fewer :=
  fun one member other alsoMember => separates one (inside member) other (inside alsoMember)

theorem chain_append (pairs : List (List Byte × List Byte)) (pair : List Byte × List Byte) :
    chain hash (pairs ++ [pair]) = absorb hash (chain hash pairs) pair := by
  rw [chain, List.foldl_append]
  rfl

theorem inputsFrom_append (buffer : List Byte) (pairs : List (List Byte × List Byte))
    (pair : List Byte × List Byte) :
    inputsFrom hash buffer (pairs ++ [pair]) =
      inputsFrom hash buffer pairs ++
        [pairs.foldl (absorb hash) buffer ++ pair.1,
          hash (pairs.foldl (absorb hash) buffer ++ pair.1) ++ pair.2] := by
  induction pairs generalizing buffer with
  | nil => rfl
  | cons first rest ih => simp [inputsFrom, ih]

theorem inputs_append (pairs : List (List Byte × List Byte)) (pair : List Byte × List Byte) :
    inputs hash (pairs ++ [pair]) =
      inputs hash pairs ++
        [chain hash pairs ++ pair.1, hash (chain hash pairs ++ pair.1) ++ pair.2] :=
  inputsFrom_append [] pairs pair

section Digests
variable {size : Nat} (digest : ∀ text, (hash text).length = size)
include digest

theorem length_chain (pairs : List (List Byte × List Byte)) :
    (chain hash pairs).length = if pairs = [] then 0 else size := by
  induction pairs using List.reverseRecOn with
  | nil => rfl
  | append_singleton pairs pair ih =>
      rw [chain_append, absorb, digest, if_neg (List.append_ne_nil_of_right_ne_nil _ (by simp))]

/-- What stands before a short text is told from it: it is a digest or nothing. -/
theorem split_short {pairs others : List (List Byte × List Byte)} {text other : List Byte}
    (short : text.length < size) (alsoShort : other.length < size)
    (same : chain hash pairs ++ text = chain hash others ++ other) :
    chain hash pairs = chain hash others ∧ text = other := by
  have lengths := congrArg List.length same
  rw [List.length_append, List.length_append, length_chain digest, length_chain digest] at lengths
  apply List.append_inj same
  rw [length_chain digest, length_chain digest]
  by_cases none : pairs = [] <;> by_cases alsoNone : others = [] <;>
    simp only [none, alsoNone, ↓reduceIte] at lengths ⊢ <;> omega

/-- The last digest tells the last pair and the digest before it. -/
theorem absorb_injective {pairs others : List (List Byte × List Byte)}
    {pair other : List Byte × List Byte}
    (separates : Separates hash
      (inputs hash (pairs ++ [pair]) ++ inputs hash (others ++ [other])))
    (short : pair.1.length < size) (alsoShort : other.1.length < size)
    (same : chain hash (pairs ++ [pair]) = chain hash (others ++ [other])) :
    chain hash pairs = chain hash others ∧ pair = other := by
  rw [chain_append, chain_append] at same
  rw [inputs_append, inputs_append] at separates
  have outer := separates _ (by simp) _ (by simp) same
  obtain ⟨digests, seconds⟩ := List.append_inj outer (by rw [digest, digest])
  have inner := separates _ (by simp) _ (by simp) digests
  obtain ⟨before, firsts⟩ := split_short digest short alsoShort inner
  exact ⟨before, Prod.ext firsts seconds⟩

/-- A digest has a size, and without a pair nothing was hashed. -/
theorem chain_filled (pairs : List (List Byte × List Byte)) (pair : List Byte × List Byte)
    (positive : 0 < size) : chain hash (pairs ++ [pair]) ≠ chain hash [] := by
  intro same
  have sizes := congrArg List.length same
  rw [length_chain digest, length_chain digest] at sizes
  simp only [List.append_eq_nil_iff, List.cons_ne_self, and_false, ↓reduceIte] at sizes
  omega

/-- The last digest tells all pairs. -/
theorem chain_injective {pairs others : List (List Byte × List Byte)}
    (separates : Separates hash (inputs hash pairs ++ inputs hash others))
    (short : ∀ pair ∈ pairs ++ others, pair.1.length < size)
    (same : chain hash pairs = chain hash others) : pairs = others := by
  -- from the ends of both chains to their starts
  induction pairs using List.reverseRecOn generalizing others with
  | nil =>
      cases others using List.reverseRecOn with
      | nil => rfl
      | append_singleton others other =>
          have positive := Nat.zero_lt_of_lt (short other (by simp))
          exact absurd same.symm (chain_filled digest others other positive)
  | append_singleton pairs pair ih =>
      cases others using List.reverseRecOn with
      | nil =>
          have positive := Nat.zero_lt_of_lt (short pair (by simp))
          exact absurd same (chain_filled digest pairs pair positive)
      | append_singleton others other =>
          obtain ⟨before, last⟩ := absorb_injective digest separates (short pair (by simp))
            (short other (by simp)) same
          have fewer : inputs hash pairs ++ inputs hash others ⊆
              inputs hash (pairs ++ [pair]) ++ inputs hash (others ++ [other]) := by
            rw [inputs_append, inputs_append]
            apply List.append_subset.mpr
            constructor
            · exact List.Subset.trans (List.subset_append_left _ _) (List.subset_append_left _ _)
            · exact List.Subset.trans (List.subset_append_left _ _) (List.subset_append_right _ _)
          have earlier : ∀ entry ∈ pairs ++ others, entry.1.length < size := by
            intro entry member
            apply short entry
            rcases List.mem_append.mp member with inside | inside
            · exact List.mem_append_left _ (List.mem_append_left _ inside)
            · exact List.mem_append_right _ (List.mem_append_left _ inside)
          rw [last, ih (separates.subset fewer) earlier before]

end Digests

end Telehash.HashChain
