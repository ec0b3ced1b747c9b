import Muduo.Library.Monitor
import Mathlib.Data.Fintype.Option
import Mathlib.Data.Set.Card

/-!
# No wake-up is lost

A thread that sleeps on the condition variable relies on others to notify it.
`Discipline` is what an object has to do for that; `Stuck.unready` is what its
threads get for it.
-/

namespace Muduo.Library

namespace Monitor

universe t u v w x

variable {Thread : Type t} {Value : Type u} {Call : Type v} {Result : Type w}
variable {Fault : Type x} [DecidableEq Thread]
variable {monitor : Monitor Value Call Result Fault}
variable {state next : State Thread Value Call Result}
variable {action : Action Thread Call}

/-- What a call takes of what it waits for. -/
def cost (waits : Call → Bool) (call : Call) : ℕ∞ :=
  if waits call then 1 else 0

variable (monitor) in
/-- `available` counts the waiting calls that could go on.  What a call makes
available beyond what it takes itself, it notifies as many threads of. -/
structure Discipline (available : Value → ℕ∞) (waits : Call → Bool) : Prop where
  ready : ∀ value call, monitor.ready value call = true ↔
    (waits call = true → available value ≠ 0)
  pays : ∀ value call work, monitor.ready value call = true →
    monitor.perform value call = .ok work →
    available work.value + cost waits call ≤
      available value + work.notice.reach

/-- The threads that will come to the test of a waiting call by themselves. -/
def bound (waits : Call → Bool) (state : State Thread Value Call Result) :
    Set Thread :=
  { thread | ∃ call, (state.place thread).awake = some call ∧
    waits call = true }

/-- While a thread sleeps, what is available is spoken for by threads that are
awake. -/
structure Served (available : Value → ℕ∞) (waits : Call → Bool)
    (state : State Thread Value Call Result) : Prop where
  patient : ∀ thread call, state.place thread = .waiting call →
    waits call = true
  spoken : (∃ thread, (state.place thread).asleep = true) →
    available state.value ≤ (bound waits state).encard

variable {available : Value → ℕ∞} {waits : Call → Bool}

private theorem Served.awaken (served : Served available waits state)
    {thread : Thread} {place : Place Call Result} {owner : Option Thread}
    (awake : place.asleep = false)
    (kept : ∀ call, (state.place thread).awake = some call →
      place.awake = some call) :
    Served available waits { state.set thread place with owner } := by
  constructor
  · intro other call waiting
    by_cases same : other = thread
    · subst same
      simp only [State.set, Function.update_self] at waiting
      rw [waiting] at awake
      cases awake
    · simp only [State.set, Function.update_of_ne same] at waiting
      exact served.patient other call waiting
  · rintro ⟨sleeper, asleep⟩
    have distinct : sleeper ≠ thread := by
      intro same
      subst same
      simp [State.set, awake] at asleep
    simp only [State.set, Function.update_of_ne distinct] at asleep
    refine (served.spoken ⟨sleeper, asleep⟩).trans (Set.encard_le_encard ?_)
    rintro other ⟨call, before, due⟩
    refine ⟨call, ?_, due⟩
    by_cases same : other = thread
    · subst same
      simpa [State.set] using kept call before
    · simpa [State.set, same] using before

omit [DecidableEq Thread] in
private theorem encard_bound {thread : Thread} {call : Call}
    (testing : state.place thread = .testing call) :
    (bound waits state \ {thread}).encard + cost waits call =
      (bound waits state).encard := by
  cases waiting : waits call with
  | true =>
      have member : thread ∈ bound waits state :=
        ⟨call, by rw [testing]; rfl, waiting⟩
      simpa [cost, waiting] using Set.encard_sdiff_singleton_add_one member
  | false =>
      have absent : thread ∉ bound waits state := by
        rintro ⟨other, awake, due⟩
        rw [testing] at awake
        cases awake
        simp [waiting] at due
      simp [cost, waiting, absent]

private theorem cost_ne_top (call : Call) : cost waits call ≠ ⊤ := by
  unfold cost
  split <;> simp

theorem waiting_notify {chosen : Option Thread} {notice : Notice}
    {thread : Thread} {call : Call}
    (waiting : state.notify chosen notice thread = .waiting call) :
    state.place thread = .waiting call := by
  have wake : (state.place thread).wake ≠ .waiting call := by
    cases state.place thread with
    | outside | entering _ | testing _ | waiting _ | woken _ | leaving _ _ =>
        intro same
        cases same
  cases notice with
  | nobody => exact waiting
  | one =>
      by_cases picked : chosen = some thread
      · rw [State.notify, if_pos picked] at waiting
        exact absurd waiting wake
      · rw [State.notify, if_neg picked] at waiting
        exact waiting
  | all => exact absurd waiting wake

theorem awake_notify {chosen : Option Thread} {notice : Notice}
    {thread : Thread} {call : Call}
    (awake : (state.place thread).awake = some call) :
    (state.notify chosen notice thread).awake = some call := by
  have wake : (state.place thread).wake.awake = some call := by
    cases place : state.place thread with
    | entering other | testing other | woken other =>
        rw [place] at awake
        exact awake
    | outside | waiting other | leaving other result =>
        rw [place] at awake
        cases awake
  cases notice with
  | nobody => exact awake
  | one =>
      by_cases picked : chosen = some thread
      · simpa [State.notify, picked] using wake
      · simpa [State.notify, picked] using awake
  | all => exact wake

omit [DecidableEq Thread] in
private theorem waiting_of_asleep {thread : Thread}
    (asleep : (state.place thread).asleep = true) :
    ∃ call, state.place thread = .waiting call := by
  cases place : state.place thread with
  | waiting call => exact ⟨call, rfl⟩
  | outside | entering _ | testing _ | woken _ | leaving _ _ =>
      rw [place] at asleep
      cases asleep

/-- What is left of the available after a thread did its work. -/
private theorem Served.perform_spoken
    (served : Served available waits state)
    (discipline : monitor.Discipline available waits)
    {thread : Thread} {chosen : Option Thread} {call : Call}
    {work : Work Value Result}
    (testing : state.place thread = .testing call)
    (ready : monitor.ready state.value call = true)
    (performed : monitor.perform state.value call = .ok work)
    (picks : state.Picks work.notice chosen)
    {places : Thread → Place Call Result}
    (after : places = Function.update (state.notify chosen work.notice) thread
      (.leaving call work.result))
    (sleeps : ∃ other, (places other).asleep = true) :
    available work.value ≤
      (bound waits { state with value := work.value, place := places }).encard := by
  obtain ⟨sleeper, asleep⟩ := sleeps
  have distinct : sleeper ≠ thread := by
    rintro rfl
    simp [after, Place.asleep] at asleep
  rw [after, Function.update_of_ne distinct] at asleep
  have pays := discipline.pays state.value call work ready performed
  have remains : bound waits state \ {thread} ⊆
      bound waits { state with value := work.value, place := places } := by
    rintro other ⟨⟨due, awake, waits⟩, away⟩
    refine ⟨due, ?_, waits⟩
    have away : other ≠ thread := away
    simp only [after, Function.update_of_ne away]
    exact awake_notify awake
  apply (ENat.add_le_add_iff_right (cost_ne_top call)).mp
  cases notice : work.notice with
  | nobody =>
      rw [notice] at pays asleep
      have spoken := served.spoken ⟨sleeper, asleep⟩
      calc available work.value + cost waits call
          ≤ available state.value + 0 := pays
        _ ≤ (bound waits state).encard := by simpa using spoken
        _ = (bound waits state \ {thread}).encard + cost waits call :=
            (encard_bound testing).symm
        _ ≤ _ := by gcongr
  | one =>
      rw [notice] at pays picks asleep
      cases chosen with
      | none =>
          rw [State.notify, if_neg (by simp), picks sleeper] at asleep
          cases asleep
      | some woken =>
          obtain ⟨due, waiting⟩ := waiting_of_asleep picks
          have spoken := served.spoken ⟨woken, picks⟩
          have fresh : woken ∉ bound waits state \ {thread} := by
            rintro ⟨⟨other, awake, _⟩, _⟩
            rw [waiting] at awake
            cases awake
          have away : woken ≠ thread := by
            rintro rfl
            rw [testing] at waiting
            cases waiting
          have joins : woken ∈ bound waits
              { state with value := work.value, place := places } := by
            refine ⟨due, ?_, served.patient woken due waiting⟩
            simp only [after, Function.update_of_ne away, notice,
              State.notify, if_pos, waiting]
            rfl
          calc available work.value + cost waits call
              ≤ available state.value + 1 := pays
            _ ≤ (bound waits state).encard + 1 := by gcongr
            _ = (bound waits state \ {thread}).encard + cost waits call + 1 := by
                rw [encard_bound testing]
            _ = (insert woken (bound waits state \ {thread})).encard +
                  cost waits call := by
                rw [Set.encard_insert_of_notMem fresh, add_right_comm]
            _ ≤ _ := by
                gcongr
                exact Set.insert_subset joins remains
  | all =>
      rw [notice] at asleep
      cases place : state.place sleeper <;>
        simp [State.notify, place, Place.wake, Place.asleep] at asleep

theorem Served.moves (served : Served available waits state)
    (discipline : monitor.Discipline available waits)
    (moves : monitor.Moves state action next) :
    Served available waits next := by
  cases moves with
  | @call thread call outside =>
      have kept : Served available waits
          { state.set thread (.entering call) with owner := state.owner } :=
        served.awaken rfl (by
          intro other awake
          rw [outside] at awake
          cases awake)
      exact kept
  | lock queued free =>
      apply served.awaken rfl
      intro other awake
      rcases queued with place | place
      · rw [place] at awake
        exact awake
      · rw [place] at awake
        exact awake
  | @perform thread chosen call work testing ready performed picks =>
      constructor
      · intro other due waiting
        by_cases same : other = thread
        · subst same
          simp [State.set] at waiting
        · simp only [State.set, Function.update_of_ne same] at waiting
          exact served.patient other due (waiting_notify waiting)
      · intro sleeps
        exact served.perform_spoken discipline testing ready performed picks rfl
          sleeps
  | @wait thread call testing unready =>
      have stuck := (discipline.ready state.value call).not.mp (by simp [unready])
      rw [Classical.not_imp, not_not] at stuck
      obtain ⟨waiting, empty⟩ := stuck
      constructor
      · intro other due place
        by_cases same : other = thread
        · subst same
          simp only [State.set, Function.update_self] at place
          cases place
          exact waiting
        · simp only [State.set, Function.update_of_ne same] at place
          exact served.patient other due place
      · intro sleeps
        show available state.value ≤ _
        simp [empty]
  | @wake thread call asleep =>
      have kept : Served available waits
          { state.set thread (.woken call) with owner := state.owner } :=
        served.awaken rfl (by
          intro other awake
          rw [asleep] at awake
          cases awake)
      exact kept
  | unlock leaving =>
      apply served.awaken rfl
      intro other awake
      rw [leaving] at awake
      cases awake

theorem run_served {value : Value} {actions : List (Action Thread Call)}
    (discipline : monitor.Discipline available waits)
    (run : monitor.machine.Run (.new value) actions state) :
    Served available waits state := by
  apply run_invariant (fun _ state => Served available waits state) ?_ ?_ run
  · constructor
    · intro thread call waiting
      cases waiting
    · rintro ⟨thread, asleep⟩
      cases asleep
  · intro actions state action next before served moves
    exact served.moves discipline moves

variable (monitor) in
/-- Nothing happens any more but new calls and wake-ups without a reason. -/
def Stuck (state : State Thread Value Call Result) : Prop :=
  ∀ thread, ¬ monitor.Enabled state (.lock thread) ∧
    (∀ chosen, ¬ monitor.Enabled state (.test thread chosen)) ∧
    ¬ monitor.Enabled state (.unlock thread)

omit [DecidableEq Thread] in
theorem Stuck.still (exclusive : Exclusive state) (stuck : monitor.Stuck state)
    (thread : Thread) : state.place thread = .outside ∨
      ∃ call, state.place thread = .waiting call := by
  have tests (other : Thread) (call : Call) :
      state.place other ≠ .testing call := by
    intro testing
    obtain ⟨chosen, picks⟩ := state.exists_picks (monitor.notice state other)
    apply (stuck other).2.1 chosen
    exact ⟨⟨congrArg Place.inside testing, congrArg Place.done testing⟩, picks⟩
  have leaves (other : Thread) (call : Call) (result : Result) :
      state.place other ≠ .leaving call result := by
    intro leaving
    exact (stuck other).2.2 (congrArg Place.done leaving)
  have free : state.owner.isNone = true := by
    cases owner : state.owner with
    | none => rfl
    | some other =>
        have inside := (exclusive other).mp owner
        cases place : state.place other with
        | testing call => exact absurd place (tests other call)
        | leaving call result => exact absurd place (leaves other call result)
        | outside | entering _ | waiting _ | woken _ =>
            rw [place] at inside
            cases inside
  cases place : state.place thread with
  | outside => exact .inl rfl
  | waiting call => exact .inr ⟨call, rfl⟩
  | testing call => exact absurd place (tests thread call)
  | leaving call result => exact absurd place (leaves thread call result)
  | entering call | woken call =>
      exact absurd ⟨congrArg Place.queued place, free⟩ (stuck thread).1

/-- In a run that got stuck, who sleeps waits for what does not hold. -/
theorem Stuck.unready {value : Value} {actions : List (Action Thread Call)}
    (discipline : monitor.Discipline available waits)
    (run : monitor.machine.Run (.new value) actions state)
    (stuck : monitor.Stuck state) {thread : Thread} {call : Call}
    (waiting : state.place thread = .waiting call) :
    monitor.ready state.value call = false := by
  have served := run_served discipline run
  have unbound : bound waits state = ∅ := by
    apply Set.eq_empty_of_forall_notMem
    rintro other ⟨due, awake, _⟩
    rcases stuck.still (run_exclusive run) other with place | ⟨call, place⟩
    · rw [place] at awake
      cases awake
    · rw [place] at awake
      cases awake
  have spoken := served.spoken ⟨thread, congrArg Place.asleep waiting⟩
  rw [unbound, Set.encard_empty, nonpos_iff_eq_zero] at spoken
  apply Bool.eq_false_iff.mpr
  intro ready
  exact (discipline.ready state.value call).mp ready
    (served.patient thread call waiting) spoken

instance [Fintype Thread] (state : State Thread Value Call Result) :
    Decidable (monitor.Stuck state) :=
  inferInstanceAs (Decidable (∀ thread,
    ¬ monitor.machine.enabled state (.lock thread) ∧
    (∀ chosen, ¬ monitor.machine.enabled state (.test thread chosen)) ∧
    ¬ monitor.machine.enabled state (.unlock thread)))

end Monitor

end Muduo.Library
