import Mathlib.Data.List.Basic

/-!
# Objects with atomic operations

An operation of an atomic object takes one step: it finds a value, leaves one
and returns a result.  Calls of several threads therefore interleave as one
list.  Two objects whose operations tell different values apart behave alike on
a list of calls exactly if they agree at every step of it.
-/

namespace Muduo.Library

universe u v w

/-- What an operation leaves in the object and what it returns. -/
structure AtomicObject (Value : Type u) (Call : Type v) (Result : Type w) where
  apply : Value → Call → Value × Result

namespace AtomicObject

variable {Value : Type u} {Call : Type v} {Result : Type w}

/-- The value after the calls, and their results in order. -/
def run (object : AtomicObject Value Call Result) (value : Value) :
    List Call → Value × List Result
  | [] => (value, [])
  | call :: calls =>
      let rest := object.run (object.apply value call).1 calls
      (rest.1, (object.apply value call).2 :: rest.2)

/-- The value after the calls. -/
def after (object : AtomicObject Value Call Result) (value : Value)
    (calls : List Call) : Value :=
  (object.run value calls).1

variable {object other : AtomicObject Value Call Result}

@[simp] theorem after_nil {value : Value} : object.after value [] = value := rfl

@[simp] theorem after_cons {value : Value} {call : Call} {calls : List Call} :
    object.after value (call :: calls) =
      object.after (object.apply value call).1 calls := rfl

theorem run_cons_eq_iff {left right : Value} {call : Call} {calls : List Call} :
    object.run left (call :: calls) = other.run right (call :: calls) ↔
      (object.apply left call).2 = (other.apply right call).2 ∧
      object.run (object.apply left call).1 calls =
        other.run (other.apply right call).1 calls := by
  simp only [run, Prod.ext_iff, List.cons.injEq]
  tauto

/-- The two objects do the same whenever one of their calls is made. -/
def Alike (object other : AtomicObject Value Call Result) (value : Value)
    (calls : List Call) : Prop :=
  ∀ front call back, calls = front ++ call :: back →
    object.apply (object.after value front) call =
      other.apply (object.after value front) call

theorem alike_cons {value : Value} {call : Call} {calls : List Call} :
    object.Alike other value (call :: calls) ↔
      object.apply value call = other.apply value call ∧
      object.Alike other (object.apply value call).1 calls := by
  constructor
  · intro alike
    refine ⟨alike [] call calls rfl, ?_⟩
    intro front next back split
    exact alike (call :: front) next back (by rw [split, List.cons_append])
  · rintro ⟨first, rest⟩ front next back split
    cases front with
    | nil =>
        obtain ⟨rfl, rfl⟩ := List.cons_eq_cons.mp split
        exact first
    | cons head front =>
        obtain ⟨rfl, same⟩ := List.cons_eq_cons.mp split
        exact rest front next back same

/-- Once the values differ, the outcome of the run does. -/
theorem run_ne_of_ne
    (reveals : ∀ call left right,
      object.apply left call = other.apply right call → left = right)
    {left right : Value} (differ : left ≠ right) (calls : List Call) :
    object.run left calls ≠ other.run right calls := by
  induction calls generalizing left right with
  | nil =>
      intro same
      exact differ (congrArg Prod.fst same)
  | cons call calls induction =>
      intro same
      obtain ⟨results, rest⟩ := run_cons_eq_iff.mp same
      refine induction ?_ rest
      intro values
      exact differ (reveals call left right (Prod.ext values results))

theorem run_eq_iff_alike
    (reveals : ∀ call left right,
      object.apply left call = other.apply right call → left = right)
    (value : Value) (calls : List Call) :
    object.run value calls = other.run value calls ↔
      object.Alike other value calls := by
  induction calls generalizing value with
  | nil =>
      constructor
      · intro _ front call back split
        simp at split
      · intro _
        rfl
  | cons call calls induction =>
      rw [run_cons_eq_iff, alike_cons]
      constructor
      · rintro ⟨results, rest⟩
        by_cases values :
            (object.apply value call).1 = (other.apply value call).1
        · rw [← values] at rest
          exact ⟨Prod.ext values results, (induction _).mp rest⟩
        · exact absurd rest (run_ne_of_ne reveals values calls)
      · rintro ⟨first, rest⟩
        rw [← first]
        exact ⟨rfl, (induction _).mpr rest⟩

end AtomicObject

end Muduo.Library
