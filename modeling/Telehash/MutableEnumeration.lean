import Mathlib.Data.List.Chain
import Mathlib.Data.List.Nodup

/-!
Enumerating an array by index while the block removes the wanted items and its
handlers append more. The indices go 0, 1, 2, … while they are below the
current count, so a removal hides the next item from the enumeration.
-/

namespace Telehash.MutableEnumeration

variable {Item : Type}

structure Enumerated (Item : Type) where
  array : List Item
  -- the items removed and handled, in that order
  taken : List Item

section Loop
variable (wanted : Item → Bool) (added : Item → List Item)

/-- The block at one index: a wanted item is removed, then handled. -/
def visit (index : Nat) (state : Enumerated Item) : Enumerated Item :=
  match state.array[index]? with
  | none => state
  | some item =>
      if wanted item then ⟨state.array.eraseIdx index ++ added item, state.taken ++ [item]⟩
      else state

def enumerate : (fuel index : Nat) → Enumerated Item → Enumerated Item
  | 0, _, state => state
  | fuel + 1, index, state =>
      if index < state.array.length then enumerate fuel (index + 1) (visit wanted added index state)
      else state

/-- What the enumeration makes of the items that were there at its start. -/
def sweep : List Item → Enumerated Item
  | [] => ⟨[], []⟩
  | [item] => if wanted item then ⟨[], [item]⟩ else ⟨[item], []⟩
  | item :: next :: rest =>
      if wanted item then ⟨next :: (sweep rest).array, item :: (sweep rest).taken⟩
      else ⟨item :: (sweep (next :: rest)).array, (sweep (next :: rest)).taken⟩

end Loop

variable {wanted : Item → Bool} {added : Item → List Item} {property : Item → Prop}

theorem visit_wanted (seen rest taken : List Item) {item : Item} (hit : wanted item = true) :
    visit wanted added seen.length ⟨seen ++ item :: rest, taken⟩ =
      ⟨seen ++ rest ++ added item, taken ++ [item]⟩ := by
  simp [visit, hit, List.eraseIdx_append_of_length_le]

theorem visit_unwanted (seen rest taken : List Item) {item : Item} (miss : ¬ wanted item = true) :
    visit wanted added seen.length ⟨seen ++ item :: rest, taken⟩ =
      ⟨seen ++ item :: rest, taken⟩ := by
  simp [visit, miss]

variable (added) in
theorem enumerate_wanted (fuel : Nat) (seen rest taken : List Item) {item : Item}
    (hit : wanted item = true) :
    enumerate wanted added (fuel + 1) seen.length ⟨seen ++ item :: rest, taken⟩ =
      enumerate wanted added fuel (seen.length + 1)
        ⟨seen ++ rest ++ added item, taken ++ [item]⟩ := by
  rw [enumerate, if_pos (by simp), visit_wanted seen rest taken hit]

variable (added) in
theorem enumerate_unwanted (fuel : Nat) (seen rest taken : List Item) {item : Item}
    (miss : ¬ wanted item = true) :
    enumerate wanted added (fuel + 1) seen.length ⟨seen ++ item :: rest, taken⟩ =
      enumerate wanted added fuel (seen.length + 1) ⟨seen ++ item :: rest, taken⟩ := by
  rw [enumerate, if_pos (by simp), visit_unwanted seen rest taken miss]

variable (wanted) in
/-- From some place on only what lies behind that place is touched, and what
comes to lie there was there already or was appended. -/
theorem enumerate_behind (grows : ∀ item, ∀ new ∈ added item, property new) (fuel offset : Nat)
    (seen tail taken : List Item) (behind : ∀ item ∈ tail, property item) :
    ∃ later laterTaken,
      enumerate wanted added fuel (seen.length + offset) ⟨seen ++ tail, taken⟩ =
        ⟨seen ++ later, taken ++ laterTaken⟩ ∧
      (∀ item ∈ later, property item) ∧ ∀ item ∈ laterTaken, property item := by
  induction fuel generalizing offset tail taken with
  | zero => exact ⟨tail, [], by simp [enumerate], behind, List.forall_mem_nil _⟩
  | succ fuel ih =>
      by_cases inside : seen.length + offset < (seen ++ tail).length
      · have place : offset < tail.length := by simpa using inside
        by_cases hit : wanted tail[offset] = true
        · have step : visit wanted added (seen.length + offset) ⟨seen ++ tail, taken⟩ =
              ⟨seen ++ (tail.eraseIdx offset ++ added tail[offset]),
                taken ++ [tail[offset]]⟩ := by
            simp [visit, place, hit, List.eraseIdx_append_of_length_le]
          have behind' : ∀ item ∈ tail.eraseIdx offset ++ added tail[offset], property item := by
            intro item member
            rcases List.mem_append.mp member with kept | new
            · exact behind item (List.eraseIdx_subset kept)
            · exact grows _ item new
          obtain ⟨later, laterTaken, run, kept, handled⟩ :=
            ih (offset + 1) _ (taken ++ [tail[offset]]) behind'
          refine ⟨later, tail[offset] :: laterTaken, ?_, kept, ?_⟩
          · rw [enumerate, if_pos inside, step, Nat.add_assoc, run]
            simp
          · intro item member
            rcases List.mem_cons.mp member with rfl | member
            · exact behind _ (List.getElem_mem place)
            · exact handled item member
        · have step : visit wanted added (seen.length + offset) ⟨seen ++ tail, taken⟩ =
              ⟨seen ++ tail, taken⟩ := by
            simp [visit, place, hit]
          rw [enumerate, if_pos inside, step, Nat.add_assoc]
          exact ih (offset + 1) tail taken behind
      · rw [enumerate, if_neg inside]
        exact ⟨tail, [], by simp, behind, List.forall_mem_nil _⟩

variable (wanted) in
/-- The items of the start are treated as `sweep` says, whatever is appended. -/
theorem enumerate_sweep (grows : ∀ item, ∀ new ∈ added item, property new)
    (rest seen tail taken : List Item) (behind : ∀ item ∈ tail, property item) (fuel : Nat)
    (enough : rest.length ≤ fuel) :
    ∃ later laterTaken,
      enumerate wanted added fuel seen.length ⟨seen ++ rest ++ tail, taken⟩ =
        ⟨seen ++ (sweep wanted rest).array ++ later,
          taken ++ (sweep wanted rest).taken ++ laterTaken⟩ ∧
      (∀ item ∈ later, property item) ∧ ∀ item ∈ laterTaken, property item := by
  have append : ∀ item tail, (∀ item ∈ tail, property item) →
      ∀ other ∈ tail ++ added item, property other := by
    intro item tail behind other member
    rcases List.mem_append.mp member with kept | new
    · exact behind other kept
    · exact grows item other new
  induction rest using sweep.induct wanted generalizing seen tail taken fuel with
  | case1 =>
      have run := enumerate_behind wanted grows fuel 0 seen tail taken behind
      simpa [sweep] using run
  | case2 item hit =>
      obtain ⟨fuel, rfl⟩ := Nat.exists_eq_succ_of_ne_zero (Nat.ne_of_gt enough)
      have first := enumerate_wanted added fuel seen tail taken hit
      have run := enumerate_behind wanted grows fuel 1 seen _ (taken ++ [item])
        (append item tail behind)
      rw [← List.append_assoc, ← first] at run
      simpa [sweep, hit] using run
  | case3 item miss =>
      obtain ⟨fuel, rfl⟩ := Nat.exists_eq_succ_of_ne_zero (Nat.ne_of_gt enough)
      have first := enumerate_unwanted added fuel seen tail taken miss
      have run := enumerate_behind wanted grows fuel 0 (seen ++ [item]) tail taken
        behind
      simp only [List.length_append, List.length_singleton, Nat.add_zero, List.append_assoc,
        List.singleton_append] at run
      rw [← first] at run
      simpa [sweep, miss] using run
  | case4 item next rest hit ih =>
      obtain ⟨fuel, rfl⟩ := Nat.exists_eq_succ_of_ne_zero
        (Nat.ne_of_gt (Nat.lt_of_lt_of_le (Nat.succ_pos _) enough))
      have first := enumerate_wanted added fuel seen (next :: rest ++ tail) taken hit
      -- the next item has moved to the index already passed
      have run := ih (seen ++ [next]) (tail ++ added item) (taken ++ [item])
        (append item tail behind) fuel (by simp only [List.length_cons] at enough; omega)
      simp only [List.length_append, List.length_singleton] at run
      have same : seen ++ [next] ++ rest ++ (tail ++ added item) =
          seen ++ (next :: rest ++ tail) ++ added item := by simp
      rw [same, ← first] at run
      simpa [sweep, hit] using run
  | case5 item next rest miss ih =>
      obtain ⟨fuel, rfl⟩ := Nat.exists_eq_succ_of_ne_zero
        (Nat.ne_of_gt (Nat.lt_of_lt_of_le (Nat.succ_pos _) enough))
      have first := enumerate_unwanted added fuel seen (next :: rest ++ tail) taken miss
      have run := ih (seen ++ [item]) tail taken behind fuel
        (by simp only [List.length_cons] at enough ⊢; omega)
      simp only [List.length_append, List.length_singleton] at run
      have same : seen ++ [item] ++ (next :: rest) ++ tail =
          seen ++ item :: (next :: rest ++ tail) := by simp
      rw [same, ← first] at run
      simpa [sweep, miss] using run

/-! ## When nothing wanted is missed -/

/-- No two neighbours are both wanted. -/
def NoneAdjacent (wanted : Item → Bool) (items : List Item) : Prop :=
  items.IsChain fun item next => ¬ (wanted item = true ∧ wanted next = true)

/-- With no wanted neighbours the sweep parts the wanted items from the others. -/
theorem sweep_parts (items : List Item) (none : NoneAdjacent wanted items) :
    sweep wanted items = ⟨items.filter fun item => !wanted item, items.filter wanted⟩ := by
  unfold NoneAdjacent at none
  induction items using sweep.induct wanted with
  | case1 => rfl
  | case2 item hit => simp [sweep, hit]
  | case3 item miss => simp [sweep, miss]
  | case4 item next rest hit ih =>
      rw [List.isChain_cons_cons] at none
      have miss : wanted next = false := by simpa [hit] using none.1
      have parts := ih none.2.tail
      simp [sweep, hit, miss, parts]
  | case5 item next rest miss ih =>
      have parts := ih none.tail
      simp [sweep, miss, parts, List.filter_cons]

/-- Of two wanted neighbours the sweep leaves one in the array. -/
theorem sweep_misses (items : List Item)
    (clear : ∀ item ∈ (sweep wanted items).array, ¬ wanted item = true) :
    NoneAdjacent wanted items := by
  unfold NoneAdjacent
  induction items using sweep.induct wanted with
  | case1 => exact List.isChain_nil
  | case2 item hit => exact List.isChain_singleton item
  | case3 item miss => exact List.isChain_singleton item
  | case4 item next rest hit ih =>
      simp only [sweep, hit, ↓reduceIte, List.forall_mem_cons] at clear
      have chain := ih clear.2
      rw [List.isChain_cons_cons]
      refine ⟨fun both => clear.1 both.2, ?_⟩
      cases rest with
      | nil => exact List.isChain_singleton next
      | cons third rest =>
          rw [List.isChain_cons_cons]
          exact ⟨fun both => clear.1 both.1, chain⟩
  | case5 item next rest miss ih =>
      simp only [sweep, miss, Bool.false_eq_true, ↓reduceIte, List.forall_mem_cons] at clear
      rw [List.isChain_cons_cons]
      exact ⟨fun both => miss both.1, ih clear.2⟩

theorem sweep_sublist (items : List Item) : (sweep wanted items).array.Sublist items := by
  induction items using sweep.induct wanted with
  | case1 => exact List.Sublist.refl []
  | case2 item hit => simp [sweep, hit]
  | case3 item miss => simp [sweep, miss]
  | case4 item next rest hit ih =>
      simp only [sweep, hit, ↓reduceIte]
      exact (ih.cons_cons next).cons item
  | case5 item next rest miss ih =>
      simp only [sweep, miss, Bool.false_eq_true, ↓reduceIte]
      exact ih.cons_cons item

/-- Items of which none is wanted stay, in their order. -/
theorem filter_sweep {kept : Item → Bool}
    (unwanted : ∀ item, kept item = true → ¬ wanted item = true) (items : List Item) :
    (sweep wanted items).array.filter kept = items.filter kept := by
  induction items using sweep.induct wanted with
  | case1 => rfl
  | case2 item hit =>
      have out : ¬ kept item = true := fun keep => unwanted item keep hit
      simp [sweep, hit, out]
  | case3 item miss => simp [sweep, miss]
  | case4 item next rest hit ih =>
      have out : ¬ kept item = true := fun keep => unwanted item keep hit
      simp [sweep, hit, out, List.filter_cons, ih]
  | case5 item next rest miss ih => simp [sweep, miss, List.filter_cons, ih]

section Clearing
variable [DecidableEq Item] {items : List Item}

/-- Of the items of the start every wanted one was taken once and is gone, and
the others stand in their order and were not taken. -/
structure Clears (wanted : Item → Bool) (items : List Item) (state : Enumerated Item) : Prop where
  once : ∀ item ∈ items, wanted item = true → state.taken.count item = 1
  gone : ∀ item ∈ items, wanted item = true → item ∉ state.array
  spared : ∀ item ∈ items, ¬ wanted item = true → item ∉ state.taken
  kept : (state.array.filter fun item => item ∈ items) = items.filter fun item => !wanted item

theorem parted_clears (unique : items.Nodup) {later laterTaken : List Item}
    (foreign : ∀ item ∈ later, item ∉ items) (foreignTaken : ∀ item ∈ laterTaken, item ∉ items) :
    Clears wanted items
      ⟨(items.filter fun item => !wanted item) ++ later, items.filter wanted ++ laterTaken⟩ := by
  constructor
  · intro item member hit
    have here : (items.filter wanted).count item = 1 :=
      List.count_eq_one_of_mem (unique.filter _) (List.mem_filter.mpr ⟨member, hit⟩)
    have there : laterTaken.count item = 0 :=
      List.count_eq_zero_of_not_mem fun taken => foreignTaken item taken member
    rw [List.count_append, here, there]
  · intro item member hit still
    rcases List.mem_append.mp still with unwanted | appended
    · simp [hit] at unwanted
    · exact foreign item appended member
  · intro item member miss taken
    rcases List.mem_append.mp taken with hit | appended
    · exact miss (List.mem_filter.mp hit).2
    · exact foreignTaken item appended member
  · have first : ((items.filter fun item => !wanted item).filter fun item => item ∈ items) =
        items.filter fun item => !wanted item := by
      apply List.filter_eq_self.mpr
      intro item member
      exact decide_eq_true (List.mem_filter.mp member).1
    have second : (later.filter fun item => item ∈ items) = [] := by
      apply List.filter_eq_nil_iff.mpr
      intro item member
      simpa using foreign item member
    rw [List.filter_append, first, second, List.append_nil]

/-- The enumeration handles what it should exactly when no two neighbours are
both wanted. -/
theorem enumerate_clears_iff (unique : items.Nodup)
    (fresh : ∀ item, ∀ new ∈ added item, new ∉ items) (fuel : Nat)
    (enough : items.length ≤ fuel) :
    Clears wanted items (enumerate wanted added fuel 0 ⟨items, []⟩) ↔
      NoneAdjacent wanted items := by
  obtain ⟨later, laterTaken, run, foreign, foreignTaken⟩ :=
    enumerate_sweep wanted fresh items [] [] [] (List.forall_mem_nil _) fuel enough
  simp only [List.length_nil, List.nil_append, List.append_nil] at run
  rw [run]
  constructor
  · intro clears
    apply sweep_misses
    intro item left hit
    exact clears.gone item ((sweep_sublist items).subset left) hit (List.mem_append_left _ left)
  · intro none
    rw [sweep_parts items none]
    exact parted_clears unique foreign foreignTaken

end Clearing

/-! ## What is visited -/

section Visited
variable (wanted : Item → Bool)

/-- The items of the start the block is handed. -/
def visited : List Item → List Item
  | [] => []
  | [item] => [item]
  | item :: next :: rest =>
      if wanted item then item :: visited rest else item :: visited (next :: rest)

variable {wanted}

theorem visited_sublist (items : List Item) : (visited wanted items).Sublist items := by
  induction items using visited.induct wanted with
  | case1 => exact List.Sublist.refl []
  | case2 item => exact List.Sublist.refl [item]
  | case3 item next rest hit ih =>
      simp only [visited, hit, ↓reduceIte]
      exact (ih.cons next).cons_cons item
  | case4 item next rest miss ih =>
      simp only [visited, miss, Bool.false_eq_true, ↓reduceIte]
      exact ih.cons_cons item

/-- Where every wanted item is visited they are parted from the others. -/
theorem sweep_of_visited (items : List Item) (unique : items.Nodup)
    (all : ∀ item ∈ items, wanted item = true → item ∈ visited wanted items) :
    (sweep wanted items).array = items.filter fun item => !wanted item := by
  induction items using visited.induct wanted with
  | case1 => rfl
  | case2 item => cases hit : wanted item <;> simp [sweep, hit]
  | case3 item next rest hit ih =>
      rw [List.nodup_cons, List.nodup_cons, List.mem_cons, not_or] at unique
      obtain ⟨⟨different, absent⟩, nextAbsent, tail⟩ := unique
      simp only [visited, hit, ↓reduceIte, List.mem_cons] at all
      -- the next item is passed by, so it is not wanted
      have miss : wanted next = false := by
        by_contra found
        rcases all next (Or.inr (Or.inl rfl)) (by simpa using found) with same | later
        · exact different same.symm
        · exact nextAbsent ((visited_sublist rest).subset later)
      have later := ih tail fun other member found => by
        rcases all other (Or.inr (Or.inr member)) found with same | later
        · rw [same] at member
          exact absurd member absent
        · exact later
      simp [sweep, hit, miss, later]
  | case4 item next rest miss ih =>
      rw [List.nodup_cons] at unique
      simp only [visited, miss, Bool.false_eq_true, ↓reduceIte, List.mem_cons] at all
      have later := ih unique.2 fun other member found => by
        rcases all other (Or.inr (List.mem_cons.mp member)) found with same | later
        · rw [same] at member
          exact absurd member unique.1
        · exact later
      simp [sweep, miss, later, List.filter_cons]

/-- Exactly the idle items are passed by if the first is not idle and the others
are exactly behind a wanted one. -/
theorem visited_iff_idle {idle : Item → Prop} (busy : ∀ item, wanted item = true → ¬idle item)
    (items : List Item) (unique : items.Nodup) :
    (∀ item ∈ items, item ∈ visited wanted items ↔ ¬idle item) ↔
      (∀ first ∈ items.head?, ¬idle first) ∧
        items.IsChain fun item next => idle next ↔ wanted item = true := by
  induction items using visited.induct wanted with
  | case1 => simp
  | case2 item => simp [visited]
  | case3 item next rest hit ih =>
      rw [List.nodup_cons, List.nodup_cons, List.mem_cons, not_or] at unique
      obtain ⟨⟨different, absent⟩, nextAbsent, tail⟩ := unique
      have behind : ∀ other ∈ rest, other ≠ item := by
        rintro other member rfl
        exact absent member
      have passed : next ∉ item :: visited wanted rest := by
        rw [List.mem_cons, not_or]
        exact ⟨Ne.symm different, fun later => nextAbsent ((visited_sublist rest).subset later)⟩
      simp only [visited, hit, ↓reduceIte, List.forall_mem_cons, List.isChain_cons_cons,
        List.head?_cons, Option.mem_some_iff, forall_eq', iff_true]
      constructor
      · rintro ⟨_, nextIff, all⟩
        have idleNext : idle next := not_not.mp (mt nextIff.mpr passed)
        obtain ⟨heads, chain⟩ := (ih tail).mp fun other member => by
          rw [← all other member, List.mem_cons, or_iff_right (behind other member)]
        refine ⟨busy item hit, idleNext, ?_⟩
        cases rest with
        | nil => exact List.isChain_singleton next
        | cons third rest =>
            rw [List.isChain_cons_cons]
            exact ⟨iff_of_false (heads third rfl) fun found => busy next found idleNext, chain⟩
      · rintro ⟨busyItem, idleNext, chain⟩
        have all := (ih tail).mpr ⟨?_, chain.tail⟩
        · refine ⟨iff_of_true List.mem_cons_self busyItem,
            iff_of_false passed (not_not_intro idleNext), fun other member => ?_⟩
          rw [List.mem_cons, or_iff_right (behind other member), all other member]
        · cases rest with
          | nil => exact fun first none => by cases none
          | cons third rest =>
              rintro first found
              cases found
              rw [(List.isChain_cons_cons.mp chain).1]
              exact fun found => busy next found idleNext
  | case4 item next rest miss ih =>
      rw [List.nodup_cons] at unique
      have behind : ∀ other ∈ next :: rest, other ≠ item := by
        rintro other member rfl
        exact unique.1 member
      have first : item ∈ item :: visited wanted (next :: rest) := List.mem_cons_self
      rw [List.isChain_cons_cons, List.forall_mem_cons]
      simp only [visited, miss, Bool.false_eq_true, ↓reduceIte, first, true_iff, List.head?_cons,
        Option.mem_some_iff, forall_eq', iff_false]
      have later : (∀ other ∈ next :: rest,
          other ∈ item :: visited wanted (next :: rest) ↔ ¬idle other) ↔
            ¬idle next ∧
              (next :: rest).IsChain fun item next => idle next ↔ wanted item = true := by
        have same := ih unique.2
        simp only [List.head?_cons, Option.mem_some_iff, forall_eq'] at same
        rw [← same]
        apply forall₂_congr
        intro other member
        rw [List.mem_cons, or_iff_right (behind other member)]
      rw [later]

end Visited

/-! ## When it ends -/

/-- The visits still to come, those of items to be appended included. -/
def visitsLeft (wanted : Item → Bool) (added : Item → List Item) (rest : List Item) : Nat :=
  rest.length + ((rest.filter wanted).flatMap added).length

theorem enumerate_past (fuel index : Nat) (array taken : List Item) (past : array.length ≤ index) :
    enumerate wanted added fuel index ⟨array, taken⟩ = ⟨array, taken⟩ := by
  cases fuel with
  | zero => rfl
  | succ fuel => rw [enumerate, if_neg (Nat.not_lt.mpr past)]

/-- Where handlers append nothing wanted the enumeration comes to its end. -/
theorem enumerate_ends (foreign : ∀ item, ∀ new ∈ added item, ¬ wanted new = true)
    (fuel more : Nat) (seen rest taken : List Item) (enough : visitsLeft wanted added rest ≤ fuel) :
    enumerate wanted added (fuel + more) seen.length ⟨seen ++ rest, taken⟩ =
      enumerate wanted added fuel seen.length ⟨seen ++ rest, taken⟩ := by
  induction fuel generalizing seen rest taken with
  | zero =>
      have empty : rest = [] := by
        apply List.eq_nil_of_length_eq_zero
        unfold visitsLeft at enough
        omega
      rw [empty, List.append_nil, enumerate_past _ _ _ _ (Nat.le_refl _),
        enumerate_past _ _ _ _ (Nat.le_refl _)]
  | succ fuel ih =>
      have fuels : fuel + 1 + more = fuel + more + 1 := by omega
      rw [fuels]
      cases rest with
      | nil =>
          rw [List.append_nil, enumerate_past _ _ _ _ (Nat.le_refl _),
            enumerate_past _ _ _ _ (Nat.le_refl _)]
      | cons item rest =>
          by_cases hit : wanted item = true
          · rw [enumerate_wanted _ _ seen rest taken hit, enumerate_wanted _ _ seen rest taken hit,
              List.append_assoc]
            have bounded : visitsLeft wanted added (rest ++ added item) ≤ fuel := by
              have unwanted : (added item).filter wanted = [] :=
                List.filter_eq_nil_iff.mpr (foreign item)
              simp only [visitsLeft, List.filter_cons, hit, ↓reduceIte, List.flatMap_cons,
                List.length_append, List.length_cons] at enough
              simp only [visitsLeft, List.filter_append, unwanted, List.append_nil,
                List.length_append]
              omega
            cases behind : rest ++ added item with
            | nil =>
                rw [List.append_nil, enumerate_past _ _ _ _ (Nat.le_succ _),
                  enumerate_past _ _ _ _ (Nat.le_succ _)]
            | cons next others =>
                rw [behind] at bounded
                have smaller : visitsLeft wanted added others ≤
                    visitsLeft wanted added (next :: others) := by
                  simp only [visitsLeft, List.filter_cons, List.length_cons]
                  split
                  · simp only [List.flatMap_cons, List.length_append]
                    omega
                  · omega
                have run := ih (seen ++ [next]) others (taken ++ [item])
                  (Nat.le_trans smaller bounded)
                simpa using run
          · rw [enumerate_unwanted _ _ seen rest taken hit,
              enumerate_unwanted _ _ seen rest taken hit]
            have bounded : visitsLeft wanted added rest ≤ fuel := by
              simp only [visitsLeft, List.filter_cons, hit, Bool.false_eq_true, ↓reduceIte,
                List.length_cons] at enough ⊢
              omega
            have run := ih (seen ++ [item]) rest taken bounded
            simpa using run

end Telehash.MutableEnumeration
