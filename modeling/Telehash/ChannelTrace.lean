import Telehash.Channel
import Telehash.FinalTrace

/-!
What is seen of a channel while one of its functions runs: the states it is
set to, the packets its delegate is handed and the packets it transmits, in
the order of the source. Ended and Errored are its final states.
-/

namespace Telehash.ChannelTrace
open Packet Channel FinalTrace Runs

inductive Act where
  | handed (packet : THPacket)
  | transmitted (packet : THPacket)

abbrev Seen := List (Observation THChannelState Act)

abbrev Final (state : THChannelState) (seen : Seen) : Prop := FinalFrom (·.Halted) state seen

theorem final_append (state : THChannelState) (before after : Seen) :
    Final state (before ++ after) ↔ Final state before ∧ Final (last state before) after :=
  finalFrom_append state before after

/-- A message to a nil delegate hands the packet to no one. -/
def handed (delegate : Option Delegate) (packet : THPacket) : Seen :=
  match delegate with
  | none => []
  | some _ => acts [.handed packet]

def asked (delegate : Option Delegate) : Delegate := delegate.getD .none

def closes (calls : List Call) : Bool :=
  calls.any fun call => match call with
    | .close => true
    | .sendPacket _ => false

/-- Where calls from a delegate leave the state. -/
def afterCalls (state : THChannelState) (calls : List Call) : THChannelState :=
  if closes calls then if state = .opening then .opening else .ended else state

@[simp] theorem closes_send (packet : THPacket) (rest : List Call) :
    closes (.sendPacket packet :: rest) = closes rest := rfl

@[simp] theorem closes_close (rest : List Call) : closes (.close :: rest) = true := rfl

@[simp] theorem afterCalls_opening (calls : List Call) : afterCalls .opening calls = .opening := by
  simp [afterCalls]

@[simp] theorem afterCalls_ended (calls : List Call) : afterCalls .ended calls = .ended := by
  simp [afterCalls]

theorem afterCalls_errored {state : THChannelState} {calls : List Call}
    (errored : afterCalls state calls = .errored) : state = .errored := by
  unfold afterCalls at errored
  split at errored
  · split at errored <;> cases errored
  · exact errored

@[simp] theorem last_handed (state : THChannelState) (delegate : Option Delegate)
    (packet : THPacket) : last state (handed delegate packet) = state := by
  cases delegate <;> rfl

@[simp] theorem final_handed (state : THChannelState) (delegate : Option Delegate)
    (packet : THPacket) :
    Final state (handed delegate packet) ↔ (state.Halted → delegate = none) := by
  cases delegate <;> simp [handed, FinalFrom]

/-! ## The calls of a delegate -/

/-- How a kind of channel performs a call: sending keeps the state, closing
ends a channel that is not only opening. Closing an errored one is not final. -/
structure Performs {Machine : Type} (stateOf : Machine → THChannelState)
    (perform : Machine → Call → Machine) (seen : Machine → Call → Seen) : Prop where
  sends : ∀ machine packet, stateOf (perform machine (.sendPacket packet)) = stateOf machine
  closes : ∀ machine, stateOf (perform machine .close) =
    if stateOf machine = .opening then .opening else .ended
  follows : ∀ machine call, last (stateOf machine) (seen machine call) =
    stateOf (perform machine call)
  sending : ∀ machine packet, Final (stateOf machine) (seen machine (.sendPacket packet))
  closing : ∀ machine, Final (stateOf machine) (seen machine .close) ↔ stateOf machine ≠ .errored

section Calls
variable {Machine : Type} {stateOf : Machine → THChannelState}
variable {perform : Machine → Call → Machine} {seen : Machine → Call → Seen}
variable (performs : Performs stateOf perform seen) (machine : Machine) (calls : List Call)
include performs

theorem state_calls : stateOf (run perform machine calls) = afterCalls (stateOf machine) calls := by
  induction calls generalizing machine with
  | nil => simp [afterCalls, ChannelTrace.closes]
  | cons call rest ih =>
      rw [run_cons, ih]
      cases call with
      | sendPacket packet =>
          rw [performs.sends]
          rfl
      | close =>
          rw [performs.closes]
          by_cases opening : stateOf machine = .opening <;> simp [opening, afterCalls]

theorem last_calls :
    last (stateOf machine) (watch perform seen machine calls) =
      afterCalls (stateOf machine) calls := by
  rw [← state_calls performs]
  exact last_watch performs.follows machine calls

theorem final_calls :
    Final (stateOf machine) (watch perform seen machine calls) ↔
      (stateOf machine = .errored → closes calls = false) := by
  refine (finalFrom_watch performs.follows machine calls).trans ?_
  induction calls generalizing machine with
  | nil => simp [Along, ChannelTrace.closes]
  | cons call rest ih =>
      rw [Along, ih]
      cases call with
      | sendPacket packet =>
          rw [performs.sends, closes_send]
          exact and_iff_right (performs.sending machine packet)
      | close =>
          have left : stateOf (perform machine .close) ≠ .errored := by
            rw [performs.closes]
            split <;> decide
          simp only [performs.closing, closes_close, left, false_implies, and_true,
            Bool.true_eq_false, imp_false, ne_eq]

end Calls

end Telehash.ChannelTrace
