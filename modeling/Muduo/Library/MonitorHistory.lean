import Muduo.Library.Monitor

/-!
# Monitors behave like atomic objects

The work of a call is done under the lock.  In the order in which they do their
work, the calls of a run are therefore a run of whole calls, one after the other,
and every thread gets the results that belong to its own calls.
-/

namespace Muduo.Library

namespace Monitor

universe t u v w x

variable {Thread : Type t} {Value : Type u} {Call : Type v} {Result : Type w}
variable {Fault : Type x} [DecidableEq Thread]
variable {monitor : Monitor Value Call Result Fault}
variable {state next : State Thread Value Call Result}
variable {action : Action Thread Call}

/-- Calls performed one after the other, each when its condition holds. -/
inductive Performs (monitor : Monitor Value Call Result Fault)
    (start : Value) : List (Call × Result) → Value → Prop where
  | refl : Performs monitor start [] start
  | step {history : List (Call × Result)} {value : Value} {call : Call}
      {work : Work Value Result} :
      Performs monitor start history value →
      monitor.ready value call = true →
      monitor.perform value call = .ok work →
      Performs monitor start (history ++ [(call, work.result)]) work.value

/-- A thread makes a call. -/
def made (_ : State Thread Value Call Result) :
    Action Thread Call → List (Thread × Call)
  | .call thread call => [(thread, call)]
  | .lock _ | .test _ _ | .wake _ | .unlock _ => []

variable (monitor) in
/-- A thread does the work of its call. -/
def performs (state : State Thread Value Call Result) :
    Action Thread Call → List (Thread × Call × Result)
  | .test thread _ =>
      match state.place thread with
      | .testing call =>
          if monitor.ready state.value call then
            match monitor.perform state.value call with
            | .ok work => [(thread, call, work.result)]
            | .error _ => []
          else []
      | _ => []
  | .call _ _ | .lock _ | .wake _ | .unlock _ => []

/-- A call returns to its thread. -/
def returned (state : State Thread Value Call Result) :
    Action Thread Call → List (Thread × Call × Result)
  | .unlock thread =>
      (state.place thread).performed.toList.map (Prod.mk thread)
  | .call _ _ | .lock _ | .test _ _ | .wake _ => []

/-- The part of a history that belongs to one thread. -/
def of {Event : Type w} (thread : Thread) (history : List (Thread × Event)) :
    List Event :=
  (history.filter fun event => event.1 = thread).map Prod.snd

theorem of_append {Event : Type w} (thread : Thread)
    (first second : List (Thread × Event)) :
    of thread (first ++ second) = of thread first ++ of thread second := by
  simp [of]

@[simp] theorem of_same {Event : Type w} (thread : Thread) (event : Event) :
    of thread [(thread, event)] = [event] := by
  simp [of]

theorem of_other {Event : Type w} {thread other : Thread}
    (distinct : other ≠ thread) (event : Event) :
    of thread [(other, event)] = [] := by
  simp [of, distinct]

variable (monitor) in
/-- The calls took effect one after the other, in the order `history`.  What a
thread has called is what took effect for it and what is pending; what took effect
for it has returned to it or is about to. -/
structure Linearized (start : Value) (calls : List (Thread × Call))
    (history results : List (Thread × Call × Result))
    (state : State Thread Value Call Result) : Prop where
  legal : monitor.Performs start (history.map Prod.snd) state.value
  called : ∀ thread, of thread calls =
    (of thread history).map Prod.fst ++ (state.place thread).pending.toList
  answered : ∀ thread, of thread history =
    of thread results ++ (state.place thread).performed.toList

theorem pending_wake (place : Place Call Result) :
    place.wake.pending = place.pending := by
  cases place <;> rfl

theorem performed_wake (place : Place Call Result) :
    place.wake.performed = place.performed := by
  cases place <;> rfl

namespace Linearized

variable {start : Value} {calls : List (Thread × Call)}
variable {history results : List (Thread × Call × Result)}

private theorem quiet
    (linearized : monitor.Linearized start calls history results state)
    {thread : Thread} {place : Place Call Result} {owner : Option Thread}
    (pending : place.pending = (state.place thread).pending)
    (performed : place.performed = (state.place thread).performed) :
    monitor.Linearized start calls history results
      { state.set thread place with owner } := by
  refine ⟨linearized.legal, ?_, ?_⟩
  · intro other
    rw [linearized.called other]
    by_cases same : other = thread
    · subst same
      simp [State.set, pending]
    · simp [State.set, same]
  · intro other
    rw [linearized.answered other]
    by_cases same : other = thread
    · subst same
      simp [State.set, performed]
    · simp [State.set, same]

theorem moves
    (linearized : monitor.Linearized start calls history results state)
    (moves : monitor.Moves state action next) :
    monitor.Linearized start (calls ++ made state action)
      (history ++ monitor.performs state action)
      (results ++ returned state action) next := by
  cases moves with
  | @call thread call outside =>
      simp only [made, performs, returned, List.append_nil]
      refine ⟨linearized.legal, ?_, ?_⟩
      · intro other
        rw [of_append, linearized.called other]
        by_cases same : other = thread
        · subst same
          simp [State.set, outside, Place.pending]
        · simp [State.set, same, of_other (Ne.symm same)]
      · intro other
        rw [linearized.answered other]
        by_cases same : other = thread
        · subst same
          simp [State.set, outside, Place.performed]
        · simp [State.set, same]
  | @lock thread call queued free =>
      simp only [made, performs, returned, List.append_nil]
      rcases queued with place | place
      · exact linearized.quiet (by rw [place]; rfl) (by rw [place]; rfl)
      · exact linearized.quiet (by rw [place]; rfl) (by rw [place]; rfl)
  | @perform thread chosen call work testing ready performed picks =>
      have event : monitor.performs state (.test thread chosen) =
          [(thread, call, work.result)] := by
        simp [performs, testing, ready, performed]
      simp only [event, made, returned, List.append_nil]
      refine ⟨?_, ?_, ?_⟩
      · rw [List.map_append]
        exact .step linearized.legal ready performed
      · intro other
        rw [linearized.called other, of_append, List.map_append]
        by_cases same : other = thread
        · subst same
          simp [State.set, testing, Place.pending]
        · simp [State.set, same, of_other (Ne.symm same), view_notify Place.pending pending_wake]
      · intro other
        rw [of_append, linearized.answered other]
        by_cases same : other = thread
        · subst same
          simp [State.set, testing, Place.performed]
        · simp [State.set, same, of_other (Ne.symm same), view_notify Place.performed performed_wake]
  | @wait thread call testing unready =>
      have event : monitor.performs state (.test thread none) = [] := by
        simp [performs, testing, unready]
      simp only [event, made, returned, List.append_nil]
      exact linearized.quiet (by rw [testing]; rfl) (by rw [testing]; rfl)
  | @wake thread call asleep =>
      simp only [made, performs, returned, List.append_nil]
      have kept : monitor.Linearized start calls history results
          { state.set thread (.woken call) with owner := state.owner } :=
        linearized.quiet (by rw [asleep]; rfl) (by rw [asleep]; rfl)
      exact kept
  | @unlock thread call result leaving =>
      have event : returned state (.unlock thread) =
          [(thread, call, result)] := by
        simp [returned, leaving, Place.performed]
      simp only [event, made, performs, List.append_nil]
      refine ⟨linearized.legal, ?_, ?_⟩
      · intro other
        rw [linearized.called other]
        by_cases same : other = thread
        · subst same
          simp [State.set, leaving, Place.pending]
        · simp [State.set, same]
      · intro other
        rw [of_append, linearized.answered other]
        by_cases same : other = thread
        · subst same
          simp [State.set, leaving, Place.performed]
        · simp [State.set, same, of_other (Ne.symm same)]

end Linearized

/-- Every run is linearized by the order in which the calls do their work. -/
theorem run_linearized {value : Value} {actions : List (Action Thread Call)}
    (run : monitor.machine.Run (.new value) actions state) :
    monitor.Linearized value
      (monitor.machine.observed made (.new value) actions)
      (monitor.machine.observed monitor.performs (.new value) actions)
      (monitor.machine.observed returned (.new value) actions) state := by
  induction run with
  | refl =>
      refine ⟨.refl, ?_, ?_⟩
      · intro thread
        rfl
      · intro thread
        rfl
  | step before enabled stepped induction =>
      rw [before.observed_concat stepped, before.observed_concat stepped,
        before.observed_concat stepped]
      exact induction.moves (.of_step enabled stepped)

end Monitor

end Muduo.Library
