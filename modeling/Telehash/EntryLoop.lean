import Mathlib.Data.List.Perm.Basic

/-!
A loop that handles entries in turn until one of them ends it. Where an entry
ends the loop, and what it brings about, may depend on the entry alone; then the
loop comes to the entries up to the first that ends it, and what it brings about
depends on their order unless no entry ends it or none brings about anything.
-/

namespace Telehash.EntryLoop

variable {State Entry Output Failure : Type}
  (step : State → Entry → Except Failure (Bool × State))

def loop : State → List Entry → Except Failure (Bool × State)
  | state, [] => .ok (false, state)
  | state, entry :: rest =>
      match step state entry with
      | .error failure => .error failure
      | .ok (true, after) => .ok (true, after)
      | .ok (false, after) => loop after rest

/-- A condition on each entry the loop comes to, in the state it comes to it. -/
def EachMet (condition : State → Entry → Prop) : State → List Entry → Prop
  | _, [] => True
  | state, entry :: rest =>
      condition state entry ∧
        ∀ after, step state entry = .ok (false, after) → EachMet condition after rest

/-- The entries up to the first that ends the loop. -/
def reached (ends : Entry → Bool) : List Entry → List Entry
  | [] => []
  | entry :: rest => entry :: if ends entry then [] else reached ends rest

variable {step} {ends : Entry → Bool} {output : Entry → List Output}

theorem reached_sublist (entries : List Entry) : (reached ends entries).Sublist entries := by
  induction entries with
  | nil => exact List.Sublist.refl []
  | cons entry rest ih =>
      unfold reached
      split
      · exact (List.nil_sublist rest).cons_cons entry
      · exact ih.cons_cons entry

theorem reached_all (entries : List Entry) (none : ∀ entry ∈ entries, ends entry = false) :
    reached ends entries = entries := by
  induction entries with
  | nil => rfl
  | cons entry rest ih =>
      obtain ⟨first, others⟩ := List.forall_mem_cons.mp none
      rw [reached, first, ih others]
      rfl

section Classified
variable {invariant : State → Prop} {condition : State → Entry → Prop} {fine : Entry → Prop}
  {names : State → List Output}

/-- If a condition comes down to one on the entry alone, and a fine entry ends
the loop or not by itself, the entries met are those reached. -/
theorem eachMet_iff
    (same : ∀ state entry, invariant state → (condition state entry ↔ fine entry))
    (handled : ∀ state entry, invariant state → fine entry →
      ∃ after, step state entry = .ok (ends entry, after) ∧ invariant after)
    (start : State) (entries : List Entry) (holds : invariant start) :
    EachMet step condition start entries ↔ ∀ entry ∈ reached ends entries, fine entry := by
  induction entries generalizing start with
  | nil => exact iff_of_true trivial (List.forall_mem_nil _)
  | cons entry rest ih =>
      rw [EachMet, reached, List.forall_mem_cons, same start entry holds]
      apply and_congr_right
      intro allowed
      obtain ⟨after, computed, kept⟩ := handled start entry holds allowed
      rw [computed]
      cases ends entry with
      | true => exact iff_of_true (fun _ never => by cases never) (List.forall_mem_nil _)
      | false =>
          have later := ih after kept
          constructor
          · exact fun met => later.mp (met after rfl)
          · rintro fineLater other ⟨⟩
            exact later.mpr fineLater

/-- What the reached entries bring about is there in the end. -/
theorem loop_brings
    (handled : ∀ state entry, invariant state → fine entry →
      ∃ after, step state entry = .ok (ends entry, after) ∧ invariant after ∧
        names after = names state ++ output entry)
    (start : State) (entries : List Entry) (holds : invariant start)
    (allowed : ∀ entry ∈ reached ends entries, fine entry) :
    ∃ ended after, loop step start entries = .ok (ended, after) ∧ invariant after ∧
      names after = names start ++ (reached ends entries).flatMap output := by
  induction entries generalizing start with
  | nil => exact ⟨false, start, rfl, holds, (List.append_nil _).symm⟩
  | cons entry rest ih =>
      rw [reached, List.forall_mem_cons] at allowed
      obtain ⟨after, computed, kept, brought⟩ := handled start entry holds allowed.1
      rw [loop, computed, reached, List.flatMap_cons]
      cases ended : ends entry with
      | true => exact ⟨true, after, rfl, kept, by simp [brought]⟩
      | false =>
          rw [ended] at allowed
          obtain ⟨stopped, last, later, keptLast, others⟩ := ih after kept allowed.2
          refine ⟨stopped, last, later, keptLast, ?_⟩
          rw [others, brought, List.append_assoc]
          rfl

/-- Fine entries keep the invariant, and the loop comes to its end. -/
theorem loop_keeps
    (handled : ∀ state entry, invariant state → fine entry →
      ∃ after, step state entry = .ok (ends entry, after) ∧ invariant after)
    (start : State) (entries : List Entry) (holds : invariant start)
    (allowed : ∀ entry ∈ reached ends entries, fine entry) :
    ∃ ended after, loop step start entries = .ok (ended, after) ∧ invariant after := by
  have brings := @loop_brings _ _ Unit _ step ends (fun _ => []) invariant fine (fun _ => [])
    (fun state entry kept fineHere => by
      obtain ⟨after, computed, keptAfter⟩ := handled state entry kept fineHere
      exact ⟨after, computed, keptAfter, rfl⟩) start entries holds allowed
  obtain ⟨ended, after, computed, kept, _⟩ := brings
  exact ⟨ended, after, computed, kept⟩

end Classified

/-! ## Orders -/

/-- Whether what is brought about is the same in every order. -/
def SameInEveryOrder (ends : Entry → Bool) (output : Entry → List Output)
    (entries : List Entry) : Prop :=
  ∀ order, order.Perm entries → ∀ item,
    item ∈ (reached ends order).flatMap output ↔ item ∈ entries.flatMap output

/-- Everything comes about in every order exactly if no entry ends the loop or
none brings about anything. -/
theorem sameInEveryOrder_iff (silent : ∀ entry, ends entry = true → output entry = [])
    (entries : List Entry) :
    SameInEveryOrder ends output entries ↔
      (∀ entry ∈ entries, ends entry = false) ∨ ∀ entry ∈ entries, output entry = [] := by
  constructor
  · intro same
    by_contra mixed
    rw [not_or] at mixed
    push Not at mixed
    obtain ⟨⟨last, member, ended⟩, ⟨first, alsoMember, brings⟩⟩ := mixed
    rw [ne_eq, Bool.not_eq_false] at ended
    -- the order that begins with the entry that ends the loop brings nothing about
    obtain ⟨before, behind, rfl⟩ := List.append_of_mem member
    obtain ⟨item, inside⟩ := List.exists_mem_of_ne_nil _ brings
    have brought := (same (last :: (before ++ behind)) List.perm_middle.symm item).mpr
      (List.mem_flatMap.mpr ⟨first, alsoMember, inside⟩)
    simp [reached, ended, silent last ended] at brought
  · rintro (none | silence) order perm item
    · have noneThere : ∀ entry ∈ order, ends entry = false := fun entry member =>
        none entry (perm.mem_iff.mp member)
      rw [reached_all order noneThere]
      exact (perm.flatMap_right output).mem_iff
    · apply iff_of_false <;> rw [List.mem_flatMap]
      · rintro ⟨entry, member, inside⟩
        rw [silence entry (perm.mem_iff.mp ((reached_sublist order).subset member))] at inside
        cases inside
      · rintro ⟨entry, member, inside⟩
        rw [silence entry member] at inside
        cases inside

end Telehash.EntryLoop
