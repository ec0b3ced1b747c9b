import Muduo.Library.Machine

/-!
# Machines that refine other machines

A concrete machine refines an abstract one when each of its steps is a step of
the abstract machine or cannot be seen there.  What is seen of a concrete run is
then an abstract run.
-/

namespace Muduo.Library

universe t u v w x y z

namespace Machine

variable {State : Type u} {Action : Type v} {Fault : Type w}
variable {Abstract : Type x} {AbstractAction : Type y} {AbstractFault : Type z}
variable (concrete : Machine State Action Fault)
variable (abstract : Machine Abstract AbstractAction AbstractFault)

/-- `visible` is the abstract action that a step amounts to, if any. -/
structure Refines (invariant : State → Prop) (view : State → Abstract)
    (visible : State → Action → Option AbstractAction) : Prop where
  kept : ∀ state action next, invariant state →
    concrete.enabled state action → concrete.step state action = .ok next →
    invariant next
  hidden : ∀ state action next, invariant state →
    concrete.enabled state action → concrete.step state action = .ok next →
    visible state action = none → view next = view state
  matched : ∀ state action next seen, invariant state →
    concrete.enabled state action → concrete.step state action = .ok next →
    visible state action = some seen →
    abstract.enabled (view state) seen ∧
      abstract.step (view state) seen = .ok (view next)

variable {concrete abstract} {invariant : State → Prop}
variable {view : State → Abstract}
variable {visible : State → Action → Option AbstractAction} {start : State}

theorem Refines.run (refines : concrete.Refines abstract invariant view visible)
    (base : invariant start) {actions : List Action} {state : State}
    (run : concrete.Run start actions state) :
    invariant state ∧
    abstract.Run (view start)
      (concrete.observed (fun state action => (visible state action).toList)
        start actions) (view state) := by
  induction run with
  | refl => exact ⟨base, .refl⟩
  | @step actions state next action before enabled stepped induction =>
      obtain ⟨holds, earlier⟩ := induction
      refine ⟨refines.kept _ _ _ holds enabled stepped, ?_⟩
      rw [before.observed_concat stepped]
      cases seen : visible state action with
      | none =>
          rw [refines.hidden _ _ _ holds enabled stepped seen]
          simpa using earlier
      | some act =>
          obtain ⟨allowed, moved⟩ :=
            refines.matched _ _ _ _ holds enabled stepped seen
          exact .step earlier allowed moved

/-- What is observed of the abstract run that a concrete run amounts to. -/
theorem Refines.observed_eq
    (refines : concrete.Refines abstract invariant view visible)
    (base : invariant start) {Event : Type t}
    (observe : Abstract → AbstractAction → List Event)
    {actions : List Action} {state : State}
    (run : concrete.Run start actions state) :
    abstract.observed observe (view start)
        (concrete.observed (fun state action => (visible state action).toList)
          start actions) =
      concrete.observed (fun state action =>
        (visible state action).toList.flatMap (observe (view state)))
        start actions := by
  induction run with
  | refl => rfl
  | @step actions state next action before enabled stepped induction =>
      obtain ⟨holds, earlier⟩ := refines.run base before
      rw [before.observed_concat stepped, before.observed_concat stepped]
      cases seen : visible state action with
      | none => simpa using induction
      | some act =>
          obtain ⟨_, moved⟩ :=
            refines.matched _ _ _ _ holds enabled stepped seen
          simp only [Option.toList_some, List.flatMap_singleton]
          rw [earlier.observed_concat moved, induction]

end Machine

end Muduo.Library
