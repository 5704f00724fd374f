import Telehash.Runs
import Mathlib.Logic.Function.Basic

/-!
Two machines of one kind that act one at a time. What may reach a machine from
the other is left to the condition on actions, so loss, duplication, delay and
reordering need no queue.
-/

namespace Telehash.TwoSided

inductive Side where
  | near
  | far
  deriving DecidableEq

def Side.other : Side → Side
  | .near => .far
  | .far => .near

@[simp] theorem other_other (side : Side) : side.other.other = side := by cases side <;> rfl

theorem other_ne (side : Side) : side.other ≠ side := by cases side <;> decide

theorem side_cases (one two : Side) : two = one ∨ two = one.other := by
  cases one <;> cases two <;> simp [Side.other]

structure Action (Event : Type) where
  side : Side
  event : Event

variable {State Event : Type} (step : State → Event → State)

def act (pair : Side → State) (action : Action Event) : Side → State :=
  Function.update pair action.side (step (pair action.side) action.event)

@[simp] theorem act_same (pair : Side → State) (side : Side) (event : Event) :
    act step pair ⟨side, event⟩ side = step (pair side) event := by
  simp [act]

@[simp] theorem act_other (pair : Side → State) (side : Side) (event : Event) :
    act step pair ⟨side, event⟩ side.other = pair side.other := by
  simp [act, other_ne]

/-- A property of each end and what the other end has: to keep it, the acting
end must keep it against the unmoved one, and the unmoved end against the moved. -/
theorem each_side (property : State → State → Prop) {pair : Side → State} {side : Side}
    {event : Event} (acting : property (step (pair side) event) (pair side.other))
    (watching : property (pair side.other) (step (pair side) event)) (which : Side) :
    property (act step pair ⟨side, event⟩ which) (act step pair ⟨side, event⟩ which.other) := by
  rcases side_cases side which with rfl | rfl
  · rw [act_same, act_other]
    exact acting
  · rw [other_other, act_same, act_other]
    exact watching

end Telehash.TwoSided
