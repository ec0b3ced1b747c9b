import Muduo.Library.Machine
import Mathlib.Data.ENat.Basic
import Mathlib.Data.Fintype.Defs
import Mathlib.Logic.Function.Basic

/-!
# Objects with one lock and one condition variable

Every call takes the lock, waits on the condition variable until its own
condition holds, does its work and releases the lock.  Any number of threads
call, and a waiting thread may also wake up without being notified.  At most one
thread is inside.
-/

namespace Muduo.Library

universe t u v w x y

/-- Whom a thread notifies before it releases the lock. -/
inductive Notice where
  | nobody
  | one
  | all
  deriving DecidableEq, Repr

/-- How many threads a notification wakes, if so many sleep. -/
def Notice.reach : Notice → ℕ∞
  | .nobody => 0
  | .one => 1
  | .all => ⊤

/-- The work of a call: the value it leaves, what it returns, whom it notifies. -/
structure Work (Value : Type u) (Result : Type w) where
  value : Value
  result : Result
  notice : Notice

/-- `ready` is the condition that a call waits for. -/
structure Monitor (Value : Type u) (Call : Type v) (Result : Type w)
    (Fault : Type x) where
  ready : Value → Call → Bool
  perform : Value → Call → Except Fault (Work Value Result)

namespace Monitor

/-- Where a thread stands in its call. -/
inductive Place (Call : Type v) (Result : Type w) where
  | outside
  | entering (call : Call)
  | testing (call : Call)
  | waiting (call : Call)
  | woken (call : Call)
  | leaving (call : Call) (result : Result)

namespace Place

variable {Call : Type v} {Result : Type w}

def idle : Place Call Result → Bool
  | outside => true
  | entering _ | testing _ | waiting _ | woken _ | leaving _ _ => false

/-- The thread waits for the lock. -/
def queued : Place Call Result → Bool
  | entering _ | woken _ => true
  | outside | testing _ | waiting _ | leaving _ _ => false

/-- The thread holds the lock. -/
def inside : Place Call Result → Bool
  | testing _ | leaving _ _ => true
  | outside | entering _ | waiting _ | woken _ => false

def asleep : Place Call Result → Bool
  | waiting _ => true
  | outside | entering _ | testing _ | woken _ | leaving _ _ => false

def done : Place Call Result → Bool
  | leaving _ _ => true
  | outside | entering _ | testing _ | waiting _ | woken _ => false

/-- The call that the thread is in. -/
def call : Place Call Result → Option Call
  | outside => none
  | entering call | testing call | waiting call | woken call
  | leaving call _ => some call

/-- The call that is made and not yet performed. -/
def pending : Place Call Result → Option Call
  | entering call | testing call | waiting call | woken call => some call
  | outside | leaving _ _ => none

/-- The call that is performed and has not returned. -/
def performed : Place Call Result → Option (Call × Result)
  | leaving call result => some (call, result)
  | outside | entering _ | testing _ | waiting _ | woken _ => none

/-- The call that comes to its test without a notification. -/
def awake : Place Call Result → Option Call
  | entering call | testing call | woken call => some call
  | outside | waiting _ | leaving _ _ => none

def wake : Place Call Result → Place Call Result
  | waiting call => woken call
  | outside => outside
  | entering call => entering call
  | testing call => testing call
  | woken call => woken call
  | leaving call result => leaving call result

theorem eq_outside_of_call {place : Place Call Result}
    (none : place.call = none) : place = .outside := by
  cases place with
  | outside => rfl
  | entering _ | testing _ | waiting _ | woken _ | leaving _ _ => cases none

end Place

/-- A monitor and its threads.  `owner` holds the lock. -/
structure State (Thread : Type t) (Value : Type u) (Call : Type v)
    (Result : Type w) where
  value : Value
  owner : Option Thread
  place : Thread → Place Call Result

/-- `chosen` is the thread that a notification of one thread wakes. -/
inductive Action (Thread : Type t) (Call : Type v) where
  | call (thread : Thread) (call : Call)
  | lock (thread : Thread)
  | test (thread : Thread) (chosen : Option Thread)
  | wake (thread : Thread)
  | unlock (thread : Thread)

variable {Thread : Type t} {Value : Type u} {Call : Type v} {Result : Type w}
variable {Fault : Type x} [DecidableEq Thread]

namespace State

def new (value : Value) : State Thread Value Call Result :=
  { value, owner := none, place := fun _ => .outside }

def set (state : State Thread Value Call Result) (thread : Thread)
    (place : Place Call Result) : State Thread Value Call Result :=
  { state with place := Function.update state.place thread place }

def notify (state : State Thread Value Call Result) (chosen : Option Thread) :
    Notice → Thread → Place Call Result
  | .nobody, thread => state.place thread
  | .one, thread =>
      if chosen = some thread then (state.place thread).wake
      else state.place thread
  | .all, thread => (state.place thread).wake

/-- A notification of one thread wakes one that sleeps, if there is any. -/
def Picks (state : State Thread Value Call Result) :
    Notice → Option Thread → Prop
  | .one, some thread => (state.place thread).asleep = true
  | .one, none => ∀ thread, (state.place thread).asleep = false
  | .nobody, chosen | .all, chosen => chosen = none

omit [DecidableEq Thread] in
theorem exists_picks (state : State Thread Value Call Result)
    (notice : Notice) : ∃ chosen, state.Picks notice chosen := by
  cases notice with
  | nobody => exact ⟨none, rfl⟩
  | all => exact ⟨none, rfl⟩
  | one =>
      by_cases sleeper : ∃ thread, (state.place thread).asleep = true
      · obtain ⟨thread, asleep⟩ := sleeper
        exact ⟨some thread, asleep⟩
      · refine ⟨none, ?_⟩
        intro thread
        exact Bool.eq_false_iff.mpr fun asleep => sleeper ⟨thread, asleep⟩

end State

variable (monitor : Monitor Value Call Result Fault)

/-- The notification that a thread sends when it tests its condition. -/
def notice (state : State Thread Value Call Result) (thread : Thread) :
    Notice :=
  match state.place thread with
  | .testing call =>
      if monitor.ready state.value call then
        match monitor.perform state.value call with
        | .ok work => work.notice
        | .error _ => .nobody
      else .nobody
  | _ => .nobody

def Enabled (state : State Thread Value Call Result) :
    Action Thread Call → Prop
  | .call thread _ => (state.place thread).idle = true
  | .lock thread =>
      (state.place thread).queued = true ∧ state.owner.isNone = true
  | .test thread chosen =>
      ((state.place thread).inside = true ∧
        (state.place thread).done = false) ∧
      state.Picks (monitor.notice state thread) chosen
  | .wake thread => (state.place thread).asleep = true
  | .unlock thread => (state.place thread).done = true

def step (state : State Thread Value Call Result) :
    Action Thread Call → Except Fault (State Thread Value Call Result)
  | .call thread call => .ok (state.set thread (.entering call))
  | .lock thread =>
      match state.place thread with
      | .entering call | .woken call =>
          .ok { state.set thread (.testing call) with owner := some thread }
      | _ => .ok state
  | .test thread chosen =>
      match state.place thread with
      | .testing call =>
          if monitor.ready state.value call then
            match monitor.perform state.value call with
            | .ok work =>
                .ok ({ state with
                  value := work.value
                  place := state.notify chosen work.notice }.set thread
                    (.leaving call work.result))
            | .error fault => .error fault
          else .ok { state.set thread (.waiting call) with owner := none }
      | _ => .ok state
  | .wake thread => .ok (state.set thread (state.place thread).wake)
  | .unlock thread => .ok { state.set thread .outside with owner := none }

/-- The monitor with any number of threads that call it. -/
def machine : Machine (State Thread Value Call Result) (Action Thread Call)
    Fault where
  enabled := monitor.Enabled
  step := monitor.step

/-- What a step does. -/
inductive Moves (state : State Thread Value Call Result) :
    Action Thread Call → State Thread Value Call Result → Prop where
  | call {thread : Thread} {call : Call}
      (outside : state.place thread = .outside) :
      Moves state (.call thread call) (state.set thread (.entering call))
  | lock {thread : Thread} {call : Call}
      (queued : state.place thread = .entering call ∨
        state.place thread = .woken call)
      (free : state.owner = none) :
      Moves state (.lock thread)
        { state.set thread (.testing call) with owner := some thread }
  | perform {thread : Thread} {chosen : Option Thread} {call : Call}
      {work : Work Value Result}
      (testing : state.place thread = .testing call)
      (ready : monitor.ready state.value call = true)
      (performed : monitor.perform state.value call = .ok work)
      (picks : state.Picks work.notice chosen) :
      Moves state (.test thread chosen)
        ({ state with
          value := work.value
          place := state.notify chosen work.notice }.set thread
            (.leaving call work.result))
  | wait {thread : Thread} {call : Call}
      (testing : state.place thread = .testing call)
      (unready : monitor.ready state.value call = false) :
      Moves state (.test thread none)
        { state.set thread (.waiting call) with owner := none }
  | wake {thread : Thread} {call : Call}
      (asleep : state.place thread = .waiting call) :
      Moves state (.wake thread) (state.set thread (.woken call))
  | unlock {thread : Thread} {call : Call} {result : Result}
      (leaving : state.place thread = .leaving call result) :
      Moves state (.unlock thread)
        { state.set thread .outside with owner := none }

variable {monitor}
variable {state next : State Thread Value Call Result}
variable {action : Action Thread Call}

omit [DecidableEq Thread] in
theorem testing_of_inside {place : Place Call Result}
    (inside : place.inside = true) (undone : place.done = false) :
    ∃ call, place = .testing call := by
  cases place with
  | testing call => exact ⟨call, rfl⟩
  | leaving call result => cases undone
  | outside | entering _ | waiting _ | woken _ => cases inside

theorem Moves.of_step (enabled : monitor.Enabled state action)
    (stepped : monitor.step state action = .ok next) :
    monitor.Moves state action next := by
  cases action with
  | call thread call =>
      cases Except.ok.inj stepped
      cases place : state.place thread with
      | outside => exact .call place
      | entering _ | testing _ | waiting _ | woken _ | leaving _ _ =>
          simp [Enabled, place, Place.idle] at enabled
  | lock thread =>
      obtain ⟨queued, free⟩ := enabled
      have none : state.owner = none := Option.isNone_iff_eq_none.mp free
      cases place : state.place thread with
      | entering call =>
          simp only [step, place] at stepped
          cases Except.ok.inj stepped
          exact .lock (.inl place) none
      | woken call =>
          simp only [step, place] at stepped
          cases Except.ok.inj stepped
          exact .lock (.inr place) none
      | outside | testing _ | waiting _ | leaving _ _ =>
          simp [place, Place.queued] at queued
  | test thread chosen =>
      obtain ⟨⟨inside, undone⟩, picks⟩ := enabled
      obtain ⟨call, testing⟩ := testing_of_inside inside undone
      simp only [step, testing] at stepped
      simp only [notice, testing] at picks
      cases ready : monitor.ready state.value call with
      | false =>
          simp only [ready] at stepped picks
          cases Except.ok.inj stepped
          obtain rfl : chosen = none := picks
          exact .wait testing ready
      | true =>
          cases performed : monitor.perform state.value call with
          | error fault => simp [ready, performed] at stepped
          | ok work =>
              simp only [ready, performed] at stepped picks
              cases Except.ok.inj stepped
              exact .perform testing ready performed picks
  | wake thread =>
      cases Except.ok.inj stepped
      cases place : state.place thread with
      | waiting call => exact .wake place
      | outside | entering _ | testing _ | woken _ | leaving _ _ =>
          simp [Enabled, place, Place.asleep] at enabled
  | unlock thread =>
      cases Except.ok.inj stepped
      cases place : state.place thread with
      | leaving call result => exact .unlock place
      | outside | entering _ | testing _ | waiting _ | woken _ =>
          simp [Enabled, place, Place.done] at enabled

theorem view_notify {View : Type y} (view : Place Call Result → View)
    (kept : ∀ place, view place.wake = view place) (chosen : Option Thread)
    (notice : Notice) (thread : Thread) :
    view (state.notify chosen notice thread) = view (state.place thread) := by
  cases notice with
  | nobody => rfl
  | one =>
      by_cases picked : chosen = some thread
      · simp [State.notify, picked, kept]
      · simp [State.notify, picked]
  | all => exact kept _

theorem call_wake (place : Place Call Result) :
    place.wake.call = place.call := by
  cases place <;> rfl

theorem done_wake (place : Place Call Result) :
    place.wake.done = place.done := by
  cases place <;> rfl

theorem Moves.call_eq (moves : monitor.Moves state action next)
    {thread : Thread} (begins : ∀ call, action ≠ .call thread call)
    (ends : action ≠ .unlock thread) :
    (next.place thread).call = (state.place thread).call := by
  cases moves with
  | @call caller call outside =>
      have other : thread ≠ caller := by
        rintro rfl
        exact begins call rfl
      simp [State.set, other]
  | @lock entered call queued free =>
      by_cases same : thread = entered
      · subst same
        rcases queued with place | place
        · simp [State.set, place, Place.call]
        · simp [State.set, place, Place.call]
      · simp [State.set, same]
  | @perform worker chosen call work testing ready performed picks =>
      by_cases same : thread = worker
      · subst same
        simp [State.set, testing, Place.call]
      · simp [State.set, same, view_notify Place.call call_wake]
  | @wait waiter call testing unready =>
      by_cases same : thread = waiter
      · subst same
        simp [State.set, testing, Place.call]
      · simp [State.set, same]
  | @wake sleeper call asleep =>
      by_cases same : thread = sleeper
      · subst same
        simp [State.set, asleep, Place.call]
      · simp [State.set, same]
  | @unlock leaver call result leaving =>
      have other : thread ≠ leaver := by
        rintro rfl
        exact ends rfl
      simp [State.set, other]

/-- The rule for what holds after every run. -/
theorem run_invariant {start : State Thread Value Call Result}
    (property : List (Action Thread Call) → State Thread Value Call Result →
      Prop)
    (base : property [] start)
    (kept : ∀ actions state action next,
      monitor.machine.Run start actions state → property actions state →
      monitor.Moves state action next → property (actions ++ [action]) next)
    {actions : List (Action Thread Call)}
    (run : monitor.machine.Run start actions state) :
    property actions state := by
  apply Machine.Run.invariant property base ?_ run
  intro actions state action next before holds enabled stepped
  exact kept actions state action next before holds (.of_step enabled stepped)

/-- No call fails in its work, if none does that may start with it. -/
theorem safe_of_perform {start : State Thread Value Call Result}
    (performs : ∀ value call, monitor.ready value call = true →
      ∃ work, monitor.perform value call = .ok work) :
    monitor.machine.Safe start := by
  intro actions state action run enabled
  cases action with
  | call thread call => exact ⟨_, rfl⟩
  | wake thread => exact ⟨_, rfl⟩
  | unlock thread => exact ⟨_, rfl⟩
  | lock thread =>
      show ∃ next, monitor.step state (.lock thread) = .ok next
      cases place : state.place thread <;>
        simp only [step, place, Except.ok.injEq, exists_eq']
  | test thread chosen =>
      obtain ⟨call, testing⟩ := testing_of_inside enabled.1.1 enabled.1.2
      cases ready : monitor.ready state.value call with
      | false => simp [machine, step, testing, ready]
      | true =>
          obtain ⟨work, performed⟩ := performs state.value call ready
          simp [machine, step, testing, ready, performed]

section Exclusion

/-- The thread that holds the lock is the one that is inside. -/
def Exclusive (state : State Thread Value Call Result) : Prop :=
  ∀ thread, state.owner = some thread ↔ (state.place thread).inside = true

omit [DecidableEq Thread] in
theorem Exclusive.unique (exclusive : Exclusive state) {first second : Thread}
    (inside : (state.place first).inside = true)
    (also : (state.place second).inside = true) : first = second := by
  have owner := (exclusive first).mpr inside
  have same := (exclusive second).mpr also
  exact Option.some.inj (owner.symm.trans same)

theorem inside_wake (place : Place Call Result) :
    place.wake.inside = place.inside := by
  cases place <;> rfl

omit [DecidableEq Thread] in
theorem Exclusive.outside_of_free (exclusive : Exclusive state)
    (free : state.owner = none) (thread : Thread) :
    (state.place thread).inside = false := by
  cases inside : (state.place thread).inside with
  | false => rfl
  | true =>
      have owner := (exclusive thread).mpr inside
      rw [free] at owner
      cases owner

private theorem Exclusive.set_outside (exclusive : Exclusive state)
    {thread : Thread} {place : Place Call Result}
    (before : (state.place thread).inside = false)
    (after : place.inside = false) : Exclusive (state.set thread place) := by
  intro other
  by_cases same : other = thread
  · subst same
    have absent := (exclusive other).not.mpr (by simp [before])
    simpa [State.set, after] using absent
  · simpa [State.set, same] using exclusive other

private theorem Exclusive.release (exclusive : Exclusive state)
    {thread : Thread} {place : Place Call Result}
    (before : (state.place thread).inside = true)
    (after : place.inside = false) :
    Exclusive { state.set thread place with owner := none } := by
  intro other
  by_cases same : other = thread
  · subst same
    simp [State.set, after]
  · have outside : (state.place other).inside ≠ true := by
      intro inside
      exact same (exclusive.unique inside before)
    simpa [State.set, same] using outside

theorem Exclusive.moves (exclusive : Exclusive state)
    (moves : monitor.Moves state action next) : Exclusive next := by
  cases moves with
  | call outside =>
      exact exclusive.set_outside (congrArg Place.inside outside) rfl
  | @lock thread call queued free =>
      intro other
      by_cases same : other = thread
      · subst same
        simp [State.set, Place.inside]
      · have outside := exclusive.outside_of_free free other
        have distinct : thread ≠ other := Ne.symm same
        simp [State.set, same, outside, distinct]
  | @perform thread chosen call work testing ready performed picks =>
      intro other
      by_cases same : other = thread
      · subst same
        have owner := (exclusive other).mpr (congrArg Place.inside testing)
        simpa [State.set, Place.inside] using owner
      · simpa [State.set, same, view_notify Place.inside inside_wake] using exclusive other
  | wait testing unready =>
      exact exclusive.release (congrArg Place.inside testing) rfl
  | wake asleep =>
      exact exclusive.set_outside (congrArg Place.inside asleep) rfl
  | unlock leaving =>
      exact exclusive.release (congrArg Place.inside leaving) rfl

/-- At most one thread is inside, in every run. -/
theorem run_exclusive {value : Value} {actions : List (Action Thread Call)}
    (run : monitor.machine.Run (.new value) actions state) :
    Exclusive state := by
  apply run_invariant (fun _ state => Exclusive state) ?_ ?_ run
  · intro thread
    simp [State.new, Place.inside]
  · intro actions state action next before exclusive moves
    exact exclusive.moves moves

end Exclusion

section Decidability

variable [Fintype Thread]

instance (state : State Thread Value Call Result) (notice : Notice)
    (chosen : Option Thread) : Decidable (state.Picks notice chosen) :=
  match notice, chosen with
  | .one, some _ => inferInstanceAs (Decidable (_ = _))
  | .one, none => inferInstanceAs (Decidable (∀ _, _))
  | .nobody, none | .all, none => isTrue rfl
  | .nobody, some _ | .all, some _ => isFalse (by simp [State.Picks])

instance (state : State Thread Value Call Result)
    (action : Action Thread Call) :
    Decidable (monitor.machine.enabled state action) :=
  match action with
  | .call _ _ | .wake _ | .unlock _ => inferInstanceAs (Decidable (_ = _))
  | .lock _ => inferInstanceAs (Decidable (_ ∧ _))
  | .test _ _ => inferInstanceAs (Decidable ((_ ∧ _) ∧ State.Picks _ _ _))

end Decidability

end Monitor

end Muduo.Library
