import Mathlib.Data.List.Induction

/-!
# Guarded machines that may stop at a fault

A machine takes actions whose preconditions hold and either moves to a next
state or stops at a fault.  `Run` records the actions taken so far, so that
an invariant may speak about the history as well as about the state.  The
induction over a run is packaged once, in `Run.invariant`; a safety proof then
consists of a base case and a step case.
-/

namespace Muduo.Library

universe u v w x

/-- Guarded steps over `State`; `.error` is a run that stops at a fault. -/
structure Machine (State : Type u) (Action : Type v) (Fault : Type w) where
  enabled : State → Action → Prop
  step : State → Action → Except Fault State

namespace Machine

variable {State : Type u} {Action : Type v} {Fault : Type w}
variable (machine : Machine State Action Fault)

/-- Fault-free runs from `start`, with the actions in the order taken. -/
inductive Run (start : State) : List Action → State → Prop where
  | refl : Run start [] start
  | step {actions : List Action} {state next : State} {action : Action} :
      Run start actions state →
      machine.enabled state action →
      machine.step state action = .ok next →
      Run start (actions ++ [action]) next

/-- Every action allowed after a run from `start` completes without a fault. -/
def Safe (start : State) : Prop :=
  ∀ actions state action, machine.Run start actions state →
    machine.enabled state action →
    ∃ next, machine.step state action = .ok next

variable {machine} {start : State}

/-- An invariant of the history and the state that holds at the start and is
kept by every step holds after every run. -/
theorem Run.invariant (property : List Action → State → Prop)
    (base : property [] start)
    (preserved : ∀ actions state action next,
      machine.Run start actions state → property actions state →
      machine.enabled state action → machine.step state action = .ok next →
      property (actions ++ [action]) next)
    {actions : List Action} {state : State}
    (run : machine.Run start actions state) : property actions state := by
  induction run with
  | refl => exact base
  | step before enabled stepped induction =>
      exact preserved _ _ _ _ before induction enabled stepped

theorem Run.state_invariant (property : State → Prop)
    (base : property start)
    (preserved : ∀ state action next, property state →
      machine.enabled state action → machine.step state action = .ok next →
      property next)
    {actions : List Action} {state : State}
    (run : machine.Run start actions state) : property state :=
  Run.invariant (fun _ state => property state) base
    (fun _ state action next _ holds enabled stepped =>
      preserved state action next holds enabled stepped) run

/-- The same rule where what is known of a step is that it goes to a state with
the invariant. -/
theorem Run.progress_invariant (property : State → Prop)
    (base : property start)
    (progress : ∀ state action, property state →
      machine.enabled state action →
      ∃ next, machine.step state action = .ok next ∧ property next)
    {actions : List Action} {state : State}
    (run : machine.Run start actions state) : property state := by
  apply Run.state_invariant property base ?_ run
  intro state action next holds enabled stepped
  obtain ⟨other, result, kept⟩ := progress state action holds enabled
  obtain rfl : next = other := Except.ok.inj (stepped.symm.trans result)
  exact kept

/-- A machine is safe when an invariant rules out a fault at every step. -/
theorem safe_of_invariant (property : State → Prop)
    (base : property start)
    (progress : ∀ state action, property state →
      machine.enabled state action →
      ∃ next, machine.step state action = .ok next ∧ property next) :
    machine.Safe start := by
  intro actions state action run enabled
  have holds := run.progress_invariant property base progress
  obtain ⟨next, result, _⟩ := progress state action holds enabled
  exact ⟨next, result⟩

theorem Run.append {first second : List Action} {middle final : State}
    (before : machine.Run start first middle)
    (after : machine.Run middle second final) :
    machine.Run start (first ++ second) final := by
  induction after with
  | refl => simpa using before
  | step _ enabled stepped induction =>
      simpa using Run.step induction enabled stepped

theorem Run.head {action : Action} {actions : List Action}
    {next final : State} (rest : machine.Run next actions final)
    (enabled : machine.enabled start action)
    (stepped : machine.step start action = .ok next) :
    machine.Run start (action :: actions) final := by
  have single : machine.Run start ([] ++ [action]) next :=
    Run.step .refl enabled stepped
  simpa using single.append rest

theorem Run.of_nil {final : State} (run : machine.Run start [] final) :
    final = start := by
  generalize whole : [] = actions at run
  cases run with
  | refl => rfl
  | step _ _ _ => simp at whole

theorem Run.unsnoc {actions : List Action} {action : Action} {final : State}
    (run : machine.Run start (actions ++ [action]) final) :
    ∃ state, machine.Run start actions state ∧
      machine.enabled state action ∧
      machine.step state action = .ok final := by
  generalize whole : actions ++ [action] = taken at run
  cases run with
  | refl => simp at whole
  | @step before state _ last earlier enabled stepped =>
      obtain ⟨same, equal⟩ := List.append_inj' whole rfl
      obtain rfl : actions = before := same
      obtain rfl : action = last := List.singleton_inj.mp equal
      exact ⟨state, earlier, enabled, stepped⟩

theorem Run.unique {actions : List Action} {state other : State}
    (run : machine.Run start actions state)
    (again : machine.Run start actions other) : state = other := by
  induction run generalizing other with
  | refl => exact again.of_nil.symm
  | step _ _ stepped induction =>
      obtain ⟨middle, earlier, _, steppedAgain⟩ := again.unsnoc
      obtain rfl := induction earlier
      exact Except.ok.inj (stepped.symm.trans steppedAgain)

theorem Run.split {first second : List Action} {final : State}
    (run : machine.Run start (first ++ second) final) :
    ∃ middle, machine.Run start first middle ∧
      machine.Run middle second final := by
  induction second using List.reverseRecOn generalizing final with
  | nil =>
      rw [List.append_nil] at run
      exact ⟨final, run, .refl⟩
  | append_singleton front last induction =>
      rw [← List.append_assoc] at run
      obtain ⟨state, before, enabled, stepped⟩ := run.unsnoc
      obtain ⟨middle, head, rest⟩ := induction before
      exact ⟨middle, head, .step rest enabled stepped⟩

theorem Run.uncons {action : Action} {actions : List Action} {final : State}
    (run : machine.Run start (action :: actions) final) :
    ∃ next, machine.enabled start action ∧
      machine.step start action = .ok next ∧
      machine.Run next actions final := by
  have split : machine.Run start ([action] ++ actions) final := run
  obtain ⟨next, first, rest⟩ := split.split
  have single : machine.Run start ([] ++ [action]) next := first
  obtain ⟨state, nothing, enabled, stepped⟩ := single.unsnoc
  rw [nothing.of_nil] at enabled stepped
  exact ⟨next, enabled, stepped, rest⟩

section Happening

variable (condition : State → Action → Prop)

variable (machine) in
/-- Some step of the run meets a condition. -/
def Happens (start : State) (actions : List Action) : Prop :=
  ∃ first action second state, actions = first ++ action :: second ∧
    machine.Run start first state ∧ condition state action

variable {condition}

theorem not_happens_nil : ¬ machine.Happens condition start [] := by
  intro happens
  obtain ⟨first, action, second, _, split, _⟩ := happens
  simp at split

theorem Run.happens_concat {actions : List Action} {state : State}
    {action : Action} (run : machine.Run start actions state) :
    machine.Happens condition start (actions ++ [action]) ↔
      machine.Happens condition start actions ∨ condition state action := by
  constructor
  · intro happens
    obtain ⟨first, taken, second, middle, split, reached, met⟩ := happens
    rcases List.eq_nil_or_concat second with rfl | ⟨front, last, rfl⟩
    · obtain ⟨rfl, same⟩ := List.append_inj' split rfl
      obtain rfl := List.singleton_inj.mp same
      rw [run.unique reached]
      exact .inr met
    · rw [List.concat_eq_append, ← List.cons_append,
        ← List.append_assoc] at split
      obtain ⟨before, _⟩ := List.append_inj' split rfl
      exact .inl ⟨first, taken, front, middle, before, reached, met⟩
  · intro either
    rcases either with ⟨first, taken, second, middle, rfl, reached, met⟩ | met
    · exact ⟨first, taken, second ++ [action], middle, by simp, reached, met⟩
    · exact ⟨actions, action, [], state, rfl, run, met⟩

end Happening

section Restriction

variable (condition : State → Action → Prop)

variable (machine) in
/-- The machine that only takes steps which meet a condition. -/
def restrict : Machine State Action Fault where
  enabled state action := machine.enabled state action ∧ condition state action
  step := machine.step

variable {condition}

instance decidableRestrict (state : State) (action : Action)
    [Decidable (machine.enabled state action)]
    [Decidable (condition state action)] :
    Decidable ((machine.restrict condition).enabled state action) :=
  inferInstanceAs
    (Decidable (machine.enabled state action ∧ condition state action))

theorem Run.of_restrict {actions : List Action} {state : State}
    (run : (machine.restrict condition).Run start actions state) :
    machine.Run start actions state := by
  induction run with
  | refl => exact .refl
  | step _ enabled stepped induction =>
      exact .step induction enabled.1 stepped

theorem Run.restrict_mono {weaker : State → Action → Prop}
    (implies : ∀ state action, machine.enabled state action →
      condition state action → weaker state action)
    {actions : List Action} {state : State}
    (run : (machine.restrict condition).Run start actions state) :
    (machine.restrict weaker).Run start actions state := by
  induction run with
  | refl => exact .refl
  | step _ enabled stepped induction =>
      exact .step induction
        ⟨enabled.1, implies _ _ enabled.1 enabled.2⟩ stepped

theorem Run.restrict_invariant {strong : State → Prop} (base : strong start)
    (kept : ∀ state action next, strong state →
      machine.enabled state action → condition state action →
      machine.step state action = .ok next → strong next)
    {actions : List Action} {state : State}
    (run : (machine.restrict condition).Run start actions state) :
    strong state := by
  apply Run.state_invariant strong base ?_ run
  intro state action next holds enabled stepped
  exact kept state action next holds enabled.1 enabled.2 stepped

/-- A property that follows from an invariant of the restricted machine, and that
is lost with the first step that does not meet the condition, holds all along a
run exactly if all steps of the run meet it. -/
theorem Run.always_iff_of_restrict {strong property : State → Prop}
    (base : strong start) (implied : ∀ state, strong state → property state)
    (kept : ∀ state action next, strong state →
      machine.enabled state action → condition state action →
      machine.step state action = .ok next → strong next)
    (forced : ∀ state action next, strong state →
      machine.enabled state action → machine.step state action = .ok next →
      property next → condition state action)
    {actions : List Action} {final : State}
    (run : machine.Run start actions final) :
    (∀ first second middle, actions = first ++ second →
      machine.Run start first middle → property middle) ↔
    (machine.restrict condition).Run start actions final := by
  induction run with
  | refl =>
      constructor
      · intro _
        exact .refl
      · intro _ first second middle split reached
        obtain ⟨rfl, _⟩ := List.append_eq_nil_iff.mp split.symm
        rw [reached.of_nil]
        exact implied start base
  | @step actions state next action before enabled stepped induction =>
      constructor
      · intro always
        have earlier := induction.mp (by
          intro first second middle split reached
          refine always first (second ++ [action]) middle ?_ reached
          rw [split, List.append_assoc])
        have there := always (actions ++ [action]) [] next
          (List.append_nil _).symm (.step before enabled stepped)
        have holds := earlier.restrict_invariant base kept
        have met := forced state action next holds enabled stepped there
        exact .step earlier ⟨enabled, met⟩ stepped
      · intro restricted
        obtain ⟨middle, earlier, ⟨_, met⟩, _⟩ := restricted.unsnoc
        obtain rfl := before.unique earlier.of_restrict
        have always := induction.mpr earlier
        have holds := restricted.restrict_invariant base kept
        intro first second middle split reached
        rcases List.eq_nil_or_concat second with rfl | ⟨front, last, rfl⟩
        · rw [List.append_nil] at split
          obtain rfl := split
          rw [reached.unique (.step before enabled stepped)]
          exact implied next holds
        · rw [List.concat_eq_append, ← List.append_assoc] at split
          exact always first front middle (List.append_inj' split rfl).1
            reached

/-- A property that one step keeps exactly if the step meets a condition holds
all along a run exactly if all steps of the run meet it. -/
theorem Run.always_iff_restrict {invariant property : State → Prop}
    (start_invariant : invariant start) (start_property : property start)
    (kept : ∀ state action next, invariant state →
      machine.enabled state action → machine.step state action = .ok next →
      invariant next)
    (exact : ∀ state action next, invariant state → property state →
      machine.enabled state action → machine.step state action = .ok next →
      (property next ↔ condition state action))
    {actions : List Action} {final : State}
    (run : machine.Run start actions final) :
    (∀ first second middle, actions = first ++ second →
      machine.Run start first middle → property middle) ↔
    (machine.restrict condition).Run start actions final := by
  let strong : State → Prop := fun state => invariant state ∧ property state
  have base : strong start := ⟨start_invariant, start_property⟩
  apply run.always_iff_of_restrict base
  · intro state holds
    exact holds.2
  · intro state action next holds enabled met stepped
    exact ⟨kept state action next holds.1 enabled stepped,
      (exact state action next holds.1 holds.2 enabled stepped).mpr met⟩
  · intro state action next holds enabled stepped there
    exact (exact state action next holds.1 holds.2 enabled stepped).mp there

/-- Nothing of a kind happens in a run exactly if all its steps meet a condition,
when in the restricted machine the one means the other at every step. -/
theorem Run.not_happens_iff_restrict {strong : State → Prop}
    {event : State → Action → Prop} (base : strong start)
    (kept : ∀ state action next, strong state →
      machine.enabled state action → condition state action →
      machine.step state action = .ok next → strong next)
    (exact : ∀ state action next, strong state →
      machine.enabled state action → machine.step state action = .ok next →
      (¬ event state action ↔ condition state action))
    {actions : List Action} {final : State}
    (run : machine.Run start actions final) :
    ¬ machine.Happens event start actions ↔
      (machine.restrict condition).Run start actions final := by
  induction run with
  | refl =>
      constructor
      · intro _
        exact .refl
      · intro _
        exact not_happens_nil
  | @step actions state next action before enabled stepped induction =>
      rw [before.happens_concat, not_or, induction]
      constructor
      · rintro ⟨earlier, quiet⟩
        have holds := earlier.restrict_invariant base kept
        have met := (exact state action next holds enabled stepped).mp quiet
        exact .step earlier ⟨enabled, met⟩ stepped
      · intro restricted
        obtain ⟨middle, earlier, ⟨_, met⟩, _⟩ := restricted.unsnoc
        obtain rfl := before.unique earlier.of_restrict
        have holds := earlier.restrict_invariant base kept
        exact ⟨earlier, (exact state action next holds enabled stepped).mpr met⟩

end Restriction

section Observation

variable {Event : Type x}

variable (machine) in
/-- What an observer writes down who sees every action and the state that it is
taken in. -/
def observed (observe : State → Action → List Event) (start : State) :
    List Action → List Event
  | [] => []
  | action :: actions =>
      observe start action ++
        match machine.step start action with
        | .ok next => observed observe next actions
        | .error _ => []

variable {observe : State → Action → List Event}

theorem Run.observed_append {actions : List Action} {state : State}
    (run : machine.Run start actions state) (rest : List Action) :
    machine.observed observe start (actions ++ rest) =
      machine.observed observe start actions ++
        machine.observed observe state rest := by
  induction run generalizing rest with
  | refl => rfl
  | @step actions state next action _ _ stepped induction =>
      have head : machine.observed observe state (action :: rest) =
          observe state action ++ machine.observed observe next rest := by
        simp only [observed, stepped]
      have last : machine.observed observe state [action] =
          observe state action := by
        simp only [observed, stepped, List.append_nil]
      rw [List.append_assoc, List.singleton_append, induction, head,
        induction, last, List.append_assoc]

theorem Run.observed_concat {actions : List Action} {state next : State}
    {action : Action} (run : machine.Run start actions state)
    (stepped : machine.step state action = .ok next) :
    machine.observed observe start (actions ++ [action]) =
      machine.observed observe start actions ++ observe state action := by
  rw [run.observed_append]
  simp only [observed, stepped, List.append_nil]

end Observation

section Execution

variable (machine)
variable [∀ state action, Decidable (machine.enabled state action)]

/-- Take the actions in turn; `none` if one is not allowed or faults. -/
def execute (start : State) : List Action → Option State
  | [] => some start
  | action :: actions =>
      if machine.enabled start action then
        match machine.step start action with
        | .ok next => execute next actions
        | .error _ => none
      else none

variable {machine}

/-- What execution finds in the state it reaches holds at the end of a run. -/
theorem run_of_execute {accept : State → Bool} {actions : List Action}
    (found : (machine.execute start actions).any accept = true) :
    ∃ state, machine.Run start actions state ∧ accept state = true := by
  induction actions generalizing start with
  | nil => exact ⟨start, .refl, by simpa [execute] using found⟩
  | cons action actions induction =>
      by_cases enabled : machine.enabled start action
      · cases stepped : machine.step start action with
        | ok next =>
            have rest : (machine.execute next actions).any accept = true := by
              simpa [execute, enabled, stepped] using found
            obtain ⟨state, run, accepted⟩ := induction rest
            exact ⟨state, run.head enabled stepped, accepted⟩
        | error fault => simp [execute, enabled, stepped] at found
      · simp [execute, enabled] at found

end Execution

end Machine

end Muduo.Library
