import Telehash.Runs

/-!
What an observer sees of a machine: the states it takes and what it does in
between. Some states are final. A trace is final when, from the first final
state on, nothing is done and no other state is taken.
-/

namespace Telehash.FinalTrace
open Runs

inductive Observation (State Act : Type) where
  | became (state : State)
  | did (act : Act)

variable {State Act : Type}

/-- The state a trace ends in. -/
def last : State → List (Observation State Act) → State
  | state, [] => state
  | _, .became next :: rest => last next rest
  | state, .did _ :: rest => last state rest

def FinalFrom (final : State → Prop) : State → List (Observation State Act) → Prop
  | _, [] => True
  | state, .became next :: rest => (final state → next = state) ∧ FinalFrom final next rest
  | state, .did _ :: rest => ¬ final state ∧ FinalFrom final state rest

def acts (done : List Act) : List (Observation State Act) := done.map .did

@[simp] theorem last_append (state : State) (before after : List (Observation State Act)) :
    last state (before ++ after) = last (last state before) after := by
  induction before generalizing state with
  | nil => rfl
  | cons observation rest ih => cases observation <;> exact ih _

@[simp] theorem last_acts (state : State) (done : List Act) : last state (acts done) = state := by
  induction done with
  | nil => rfl
  | cons act rest ih => exact ih

variable {final : State → Prop}

theorem finalFrom_append (state : State) (before after : List (Observation State Act)) :
    FinalFrom final state (before ++ after) ↔
      FinalFrom final state before ∧ FinalFrom final (last state before) after := by
  induction before generalizing state with
  | nil => simp [FinalFrom, last]
  | cons observation rest ih =>
      cases observation with
      | became next => simp only [List.cons_append, FinalFrom, last, ih, and_assoc]
      | did act => simp only [List.cons_append, FinalFrom, last, ih, and_assoc]

@[simp] theorem finalFrom_acts (state : State) (done : List Act) :
    FinalFrom final state (acts done) ↔ (final state → done = []) := by
  induction done with
  | nil => simp [acts, FinalFrom]
  | cons act rest ih =>
      have tail : FinalFrom final state (acts (act :: rest)) ↔
          ¬ final state ∧ FinalFrom final state (acts rest) := Iff.rfl
      rw [tail, ih]
      simp only [reduceCtorEq, imp_false]
      exact ⟨And.left, fun alive => ⟨alive, fun ended => absurd ended alive⟩⟩

/-- A trace is final when each thing seen after a final state is that state again. -/
theorem finalFrom_iff (state : State) (trace : List (Observation State Act)) :
    FinalFrom final state trace ↔
      ∀ before seen after, trace = before ++ seen :: after → final (last state before) →
        seen = .became (last state before) := by
  constructor
  · intro holds before seen after split ended
    rw [split, finalFrom_append] at holds
    cases seen with
    | became next => rw [holds.2.1 ended]
    | did act => exact absurd ended holds.2.1
  · intro every
    induction trace generalizing state with
    | nil => trivial
    | cons seen rest ih =>
        have later : ∀ next, (∀ before, last state (seen :: before) = last next before) →
            FinalFrom final next rest := by
          intro next same
          refine ih next fun before other after split ended => ?_
          rw [← same] at ended ⊢
          exact every (seen :: before) other after (by rw [split, List.cons_append]) ended
        cases seen with
        | became next =>
            refine ⟨fun ended => ?_, later next fun _ => rfl⟩
            have same := every [] (.became next) rest rfl ended
            injection same
        | did act =>
            refine ⟨fun ended => ?_, later state fun _ => rfl⟩
            cases every [] (.did act) rest rfl ended

/-! ## Runs under observation -/

section Machine
variable {Machine Event : Type} (step : Machine → Event → Machine)
variable (seen : Machine → Event → List (Observation State Act))

/-- All that is seen in a run. -/
def watch : Machine → List Event → List (Observation State Act)
  | _, [] => []
  | machine, event :: rest => seen machine event ++ watch (step machine event) rest

variable {step seen} {stateOf : Machine → State}
variable (follows : ∀ machine event,
  last (stateOf machine) (seen machine event) = stateOf (step machine event))
include follows

theorem last_watch (machine : Machine) (events : List Event) :
    last (stateOf machine) (watch step seen machine events) =
      stateOf (run step machine events) := by
  induction events generalizing machine with
  | nil => rfl
  | cons event rest ih => rw [watch, last_append, follows, ih, run_cons]

/-- A run is final when each of its steps is. -/
theorem finalFrom_watch (machine : Machine) (events : List Event) :
    FinalFrom final (stateOf machine) (watch step seen machine events) ↔
      Along step (fun reached event => FinalFrom final (stateOf reached) (seen reached event))
        machine events := by
  induction events generalizing machine with
  | nil => exact Iff.rfl
  | cons event rest ih => rw [watch, finalFrom_append, follows, ih, Along]

end Machine

end Telehash.FinalTrace
