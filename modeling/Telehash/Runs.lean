import Mathlib.Data.List.Infix

/-!
Runs of a deterministic machine under a list of events. Which events may occur
in a state is a separate predicate, so one step function serves every schedule.
`Along` checks a condition before each step, `Throughout` a property in each
state reached, the first and the last included.
-/

namespace Telehash.Runs

variable {State Event : Type} (step : State → Event → State)

def run (start : State) (events : List Event) : State := events.foldl step start

def Along (condition : State → Event → Prop) : State → List Event → Prop
  | _, [] => True
  | state, event :: rest => condition state event ∧ Along condition (step state event) rest

def Throughout (property : State → Prop) : State → List Event → Prop
  | state, [] => property state
  | state, event :: rest => property state ∧ Throughout property (step state event) rest

/-- What the steps of a run bring, one after the other. -/
def collect {Item : Type} (brings : State → Event → List Item) : State → List Event → List Item
  | _, [] => []
  | state, event :: rest => brings state event ++ collect brings (step state event) rest

instance alongDecidable (condition : State → Event → Prop)
    [∀ state event, Decidable (condition state event)] :
    (start : State) → (events : List Event) → Decidable (Along step condition start events)
  | _, [] => inferInstanceAs (Decidable True)
  | start, event :: rest =>
      have := alongDecidable condition (step start event) rest
      inferInstanceAs
        (Decidable (condition start event ∧ Along step condition (step start event) rest))

instance throughoutDecidable (property : State → Prop) [DecidablePred property] :
    (start : State) → (events : List Event) → Decidable (Throughout step property start events)
  | start, [] => inferInstanceAs (Decidable (property start))
  | start, event :: rest =>
      have := throughoutDecidable property (step start event) rest
      inferInstanceAs
        (Decidable (property start ∧ Throughout step property (step start event) rest))

@[simp] theorem run_nil (start : State) : run step start [] = start := rfl

@[simp] theorem run_cons (start : State) (event : Event) (rest : List Event) :
    run step start (event :: rest) = run step (step start event) rest := rfl

theorem run_append (start : State) (before after : List Event) :
    run step start (before ++ after) = run step (run step start before) after :=
  List.foldl_append

variable {step}

theorem along_true (start : State) (events : List Event) :
    Along step (fun _ _ => True) start events := by
  induction events generalizing start with
  | nil => trivial
  | cons event rest ih => exact ⟨trivial, ih _⟩

theorem along_of_forall {condition : Event → Prop} (start : State) (events : List Event)
    (all : ∀ event ∈ events, condition event) :
    Along step (fun _ event => condition event) start events := by
  induction events generalizing start with
  | nil => trivial
  | cons event rest ih =>
      obtain ⟨first, others⟩ := List.forall_mem_cons.mp all
      exact ⟨first, ih _ others⟩

theorem forall_of_along {condition : Event → Prop} (start : State) (events : List Event)
    (along : Along step (fun _ event => condition event) start events) :
    ∀ event ∈ events, condition event := by
  induction events generalizing start with
  | nil => exact List.forall_mem_nil _
  | cons event rest ih => exact List.forall_mem_cons.mpr ⟨along.1, ih _ along.2⟩

/-- A condition each of the events meets in whatever state it comes. -/
theorem along_everywhere {condition : State → Event → Prop} (start : State) (events : List Event)
    (all : ∀ event ∈ events, ∀ state, condition state event) :
    Along step condition start events := by
  induction events generalizing start with
  | nil => trivial
  | cons event rest ih =>
      obtain ⟨first, others⟩ := List.forall_mem_cons.mp all
      exact ⟨first start, ih _ others⟩

theorem along_mono {stronger weaker : State → Event → Prop}
    (implies : ∀ state event, stronger state event → weaker state event) (start : State)
    (events : List Event) (along : Along step stronger start events) :
    Along step weaker start events := by
  induction events generalizing start with
  | nil => trivial
  | cons event rest ih => exact ⟨implies _ _ along.1, ih _ along.2⟩

theorem along_append {condition : State → Event → Prop} (start : State)
    (before after : List Event) :
    Along step condition start (before ++ after) ↔
      Along step condition start before ∧
        Along step condition (run step start before) after := by
  induction before generalizing start with
  | nil => simp [Along]
  | cons event rest ih =>
      simp only [List.cons_append, Along, run_cons, ih, and_assoc]

theorem along_and {left right : State → Event → Prop} (start : State) (events : List Event) :
    Along step (fun state event => left state event ∧ right state event) start events ↔
      Along step left start events ∧ Along step right start events := by
  induction events generalizing start with
  | nil => simp [Along]
  | cons event rest ih =>
      simp only [Along, ih]
      exact and_and_and_comm

theorem along_congr {left right : State → Event → Prop}
    (same : ∀ state event, left state event ↔ right state event) (start : State)
    (events : List Event) : Along step left start events ↔ Along step right start events := by
  induction events generalizing start with
  | nil => exact Iff.rfl
  | cons event rest ih => exact and_congr (same start event) (ih _)

/-- Two conditions that agree under an invariant hold along the same runs. -/
theorem along_congr_invariant {allowed left right : State → Event → Prop}
    {invariant : State → Prop}
    (preserved : ∀ state event, allowed state event → invariant state →
      invariant (step state event))
    (same : ∀ state event, allowed state event → invariant state →
      (left state event ↔ right state event))
    (start : State) (events : List Event) (holds : invariant start)
    (along : Along step allowed start events) :
    Along step left start events ↔ Along step right start events := by
  induction events generalizing start with
  | nil => exact Iff.rfl
  | cons event rest ih =>
      exact and_congr (same start event along.1 holds)
        (ih _ (preserved _ _ along.1 holds) along.2)

/-- Two conditions that agree under an invariant, which a step that meets them
preserves, hold along the same runs. -/
theorem along_congr_while {left right : State → Event → Prop} {invariant : State → Prop}
    (preserved : ∀ state event, invariant state → right state event →
      invariant (step state event))
    (same : ∀ state event, invariant state → (left state event ↔ right state event))
    (start : State) (events : List Event) (holds : invariant start) :
    Along step left start events ↔ Along step right start events := by
  induction events generalizing start with
  | nil => exact Iff.rfl
  | cons event rest ih =>
      rw [Along, Along, same start event holds]
      exact and_congr_right fun met => ih _ (preserved start event holds met)

/-- The induction rule of safety: what holds at the start and survives every
step that meets the condition holds at the end of the run. -/
theorem run_invariant {condition : State → Event → Prop} {invariant : State → Prop}
    (preserved : ∀ state event, condition state event → invariant state →
      invariant (step state event))
    (start : State) (events : List Event) (holds : invariant start)
    (along : Along step condition start events) : invariant (run step start events) := by
  induction events generalizing start with
  | nil => exact holds
  | cons event rest ih => exact ih _ (preserved _ _ along.1 holds) along.2

/-- With an invariant the condition on each step gives a property of it. -/
theorem along_invariant {condition property : State → Event → Prop} {invariant : State → Prop}
    (preserved : ∀ state event, condition state event → invariant state →
      invariant (step state event))
    (implies : ∀ state event, condition state event → invariant state → property state event)
    (start : State) (events : List Event) (holds : invariant start)
    (along : Along step condition start events) : Along step property start events := by
  induction events generalizing start with
  | nil => trivial
  | cons event rest ih =>
      constructor
      · exact implies start event along.1 holds
      · exact ih _ (preserved _ _ along.1 holds) along.2

theorem throughout_invariant {condition : State → Event → Prop} {invariant : State → Prop}
    (preserved : ∀ state event, condition state event → invariant state →
      invariant (step state event))
    (start : State) (events : List Event) (holds : invariant start)
    (along : Along step condition start events) : Throughout step invariant start events := by
  induction events generalizing start with
  | nil => exact holds
  | cons event rest ih => exact ⟨holds, ih _ (preserved _ _ along.1 holds) along.2⟩

theorem throughout_mono {stronger weaker : State → Prop}
    (implies : ∀ state, stronger state → weaker state)
    (start : State) (events : List Event) (holds : Throughout step stronger start events) :
    Throughout step weaker start events := by
  induction events generalizing start with
  | nil => exact implies _ holds
  | cons event rest ih => exact ⟨implies _ holds.1, ih _ holds.2⟩

theorem throughout_start {property : State → Prop} {start : State} {events : List Event}
    (holds : Throughout step property start events) : property start := by
  cases events with
  | nil => exact holds
  | cons event rest => exact holds.1

/-- Throughout a run means after every prefix of it. -/
theorem throughout_iff {property : State → Prop} (start : State) (events : List Event) :
    Throughout step property start events ↔
      ∀ before, before <+: events → property (run step start before) := by
  induction events generalizing start with
  | nil => simp [Throughout]
  | cons event rest ih =>
      simp only [Throughout, ih]
      constructor
      · rintro ⟨first, later⟩ before leading
        cases before with
        | nil => exact first
        | cons head tail =>
            obtain ⟨same, inner⟩ := List.cons_prefix_cons.mp leading
            subst same
            exact later tail inner
      · intro every
        exact ⟨every [] List.nil_prefix,
          fun tail leading => every (event :: tail) (List.cons_prefix_cons.mpr ⟨rfl, leading⟩)⟩

/-- A property that an invariant gives, and that a step keeps only under the
condition under which it keeps the invariant. -/
theorem throughout_iff_along {allowed condition : State → Event → Prop}
    {property invariant : State → Prop} (holds : ∀ state, invariant state → property state)
    (preserved : ∀ state event, allowed state event → condition state event → invariant state →
      invariant (step state event))
    (needed : ∀ state event, allowed state event → invariant state →
      property (step state event) → condition state event)
    (start : State) (events : List Event) (first : invariant start)
    (along : Along step allowed start events) :
    Throughout step property start events ↔ Along step condition start events := by
  induction events generalizing start with
  | nil => exact iff_of_true (holds start first) trivial
  | cons event rest ih =>
      constructor
      · rintro ⟨_, later⟩
        have now := needed start event along.1 first (throughout_start later)
        exact ⟨now, (ih _ (preserved _ _ along.1 now first) along.2).mp later⟩
      · rintro ⟨now, later⟩
        exact ⟨holds start first, (ih _ (preserved _ _ along.1 now first) along.2).mpr later⟩

theorem throughout_and {left right : State → Prop} (start : State) (events : List Event) :
    Throughout step (fun state => left state ∧ right state) start events ↔
      Throughout step left start events ∧ Throughout step right start events := by
  induction events generalizing start with
  | nil => exact Iff.rfl
  | cons event rest ih =>
      simp only [Throughout, ih]
      exact and_and_and_comm

/-- Two properties that agree under an invariant hold throughout the same runs. -/
theorem throughout_congr_invariant {left right invariant : State → Prop}
    (preserved : ∀ state event, invariant state → invariant (step state event))
    (same : ∀ state, invariant state → (left state ↔ right state))
    (start : State) (events : List Event) (holds : invariant start) :
    Throughout step left start events ↔ Throughout step right start events := by
  induction events generalizing start with
  | nil => exact same start holds
  | cons event rest ih => exact and_congr (same start holds) (ih _ (preserved _ _ holds))

/-- What only certain steps bring about has come about by one of them. -/
theorem run_raised_iff {condition raises : State → Event → Prop} {invariant raised : State → Prop}
    (preserved : ∀ state event, condition state event → invariant state →
      invariant (step state event))
    (one : ∀ state event, condition state event → invariant state →
      (raised (step state event) ↔ raised state ∨ raises state event))
    (start : State) (events : List Event) (holds : invariant start)
    (along : Along step condition start events) :
    raised (run step start events) ↔ raised start ∨ ∃ before event after,
      events = before ++ event :: after ∧ raises (run step start before) event := by
  induction events generalizing start with
  | nil => simp
  | cons first rest ih =>
      rw [run_cons, ih _ (preserved _ _ along.1 holds) along.2, one _ _ along.1 holds, or_assoc]
      refine or_congr_right ⟨?_, ?_⟩
      · rintro (now | ⟨before, event, after, rfl, later⟩)
        · exact ⟨[], first, rest, rfl, now⟩
        · exact ⟨first :: before, event, after, rfl, later⟩
      · rintro ⟨before, event, after, split, raising⟩
        cases before with
        | nil =>
            cases split
            exact Or.inl raising
        | cons other before =>
            cases split
            exact Or.inr ⟨before, event, after, rfl, raising⟩

/-- A log to which each step adds what it brings holds what the run has brought. -/
theorem log_collect {Item : Type} {brings : State → Event → List Item} (log : State → List Item)
    {condition : State → Event → Prop} {invariant : State → Prop}
    (preserved : ∀ state event, condition state event → invariant state →
      invariant (step state event))
    (adds : ∀ state event, condition state event → invariant state →
      log (step state event) = log state ++ brings state event)
    (start : State) (events : List Event) (holds : invariant start)
    (along : Along step condition start events) :
    log (run step start events) = log start ++ collect step brings start events := by
  induction events generalizing start with
  | nil => exact (List.append_nil _).symm
  | cons event rest ih =>
      rw [run_cons, ih _ (preserved _ _ along.1 holds) along.2, adds _ _ along.1 holds, collect,
        List.append_assoc]

theorem collect_sublist {Item : Type} {brings : State → Event → List Item}
    {all : Event → List Item} (some_ : ∀ state event, (brings state event).Sublist (all event))
    (start : State) (events : List Event) :
    (collect step brings start events).Sublist (events.flatMap all) := by
  induction events generalizing start with
  | nil => exact List.Sublist.refl _
  | cons event rest ih =>
      rw [collect, List.flatMap_cons]
      exact (some_ start event).append (ih _)

theorem run_grows {measure : State → Nat}
    (grows : ∀ state event, measure state ≤ measure (step state event)) (start : State)
    (events : List Event) : measure start ≤ measure (run step start events) := by
  induction events generalizing start with
  | nil => exact Nat.le_refl _
  | cons event rest ih => exact Nat.le_trans (grows start event) (ih _)

/-- A quantity that never shrinks is bounded along the run by its last value. -/
theorem along_bounded {measure : State → Nat}
    (grows : ∀ state event, measure state ≤ measure (step state event)) {bound : Nat}
    (start : State) (events : List Event) (last : measure (run step start events) ≤ bound) :
    Along step (fun state event => measure (step state event) ≤ bound) start events := by
  induction events generalizing start with
  | nil => trivial
  | cons event rest ih =>
      exact ⟨Nat.le_trans (run_grows grows _ rest) last, ih _ last⟩

/-! ## Notes kept beside a run -/

structure Noted (State Note : Type) where
  state : State
  note : Note

section Annotated
variable {Note : Type} (update : Note → State → Event → Note)

/-- The machine with a note that no step of it reads. -/
def annotate (step : State → Event → State) (noted : Noted State Note) (event : Event) :
    Noted State Note :=
  ⟨step noted.state event, update noted.note noted.state event⟩

theorem run_annotate (noted : Noted State Note) (events : List Event) :
    (run (annotate update step) noted events).state = run step noted.state events := by
  induction events generalizing noted with
  | nil => rfl
  | cons event rest ih => exact ih (annotate update step noted event)

theorem along_annotate {condition : State → Event → Prop} (noted : Noted State Note)
    (events : List Event) :
    Along (annotate update step) (fun reached event => condition reached.state event) noted events ↔
      Along step condition noted.state events := by
  induction events generalizing noted with
  | nil => exact Iff.rfl
  | cons event rest ih => exact and_congr Iff.rfl (ih (annotate update step noted event))

end Annotated

end Telehash.Runs
