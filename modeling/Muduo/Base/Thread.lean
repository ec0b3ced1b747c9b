import Muduo.Base.ThreadUtil

/-!
# Starting and joining a thread

`Thread::start` creates the new thread and waits at a latch until that thread has
stored its id.  The two threads interleave at every step that touches the
`Thread` object.
-/

namespace Muduo

open Library

/-- The thread that calls `start` and the one that `start` creates. -/
inductive ThreadParty where
  | starter
  | started
  deriving DecidableEq, Repr

instance : Fintype ThreadParty where
  elems := {.starter, .started}
  complete party := by cases party <;> simp

/-- Where the caller of `start` and `join` stands; each stage is named for what
comes next. -/
inductive StarterStage where
  | outside
  | create
  | wait
  | check
  | joining
  deriving DecidableEq, Repr

/-- Where `runInThread` stands. -/
inductive ChildStage where
  | absent
  | store
  | countDown
  | work
  | finished
  deriving DecidableEq, Repr

namespace ChildStage

/-- The thread has no more use for the object that started it. -/
def past : ChildStage → Bool
  | work | finished => true
  | absent | store | countDown => false

theorem ne_absent_of_past {child : ChildStage} (past : child.past = true) :
    child ≠ absent := by
  rintro rfl
  cases past

end ChildStage

/-- `latch_` comes with the places of the two threads in its functions. -/
structure Thread where
  started : Bool
  joined : Bool
  tid : Int
  latch : Monitor.State ThreadParty Int LatchCall LatchResult
  starter : StarterStage
  child : ChildStage

/-- The asserts of `start` and `join`, the fatal failure of `pthread_create`, and
the overflow of the latch. -/
inductive ThreadFault where
  | start
  | create
  | tid
  | joinStarted
  | joinJoined
  | latch
  deriving DecidableEq, Repr

namespace Thread

/-- `create` is the outcome of `pthread_create`, `store` the id that the kernel
gave the thread, `latch` a step inside `wait` or `countDown`. -/
inductive Action where
  | start
  | create (success : Bool)
  | store (tid : Int)
  | latch (action : Monitor.Action ThreadParty LatchCall)
  | check
  | finish
  | join
  | joined

def new : Thread :=
  { started := false
    joined := false
    tid := 0
    latch := .new 1
    starter := .outside
    child := .absent }

/-- What comes after a step inside the latch. -/
def advance (thread : Thread) : Monitor.Action ThreadParty LatchCall → Thread
  | .unlock .starter => { thread with starter := .check }
  | .unlock .started => { thread with child := .work }
  | .call _ _ | .lock _ | .test _ _ | .wake _ => thread

def step (thread : Thread) : Action → Except ThreadFault Thread
  | .start =>
      if thread.started then .error .start
      else .ok { thread with started := true, starter := .create }
  | .create true =>
      .ok { thread with
        starter := .wait
        child := .store
        latch := thread.latch.set .starter (.entering .wait) }
  | .create false => .error .create
  | .store tid =>
      .ok { thread with
        tid
        child := .countDown
        latch := thread.latch.set .started (.entering .countDown) }
  | .latch action =>
      match CountDownLatch.step thread.latch action with
      | .ok latch => .ok ({ thread with latch }.advance action)
      | .error _ => .error .latch
  | .check =>
      if thread.tid > 0 then .ok { thread with starter := .outside }
      else .error .tid
  | .finish => .ok { thread with child := .finished }
  | .join =>
      if thread.started then
        if thread.joined then .error .joinJoined
        else .ok { thread with joined := true, starter := .joining }
      else .error .joinStarted
  | .joined => .ok { thread with starter := .outside }

/-- Calls of the latch are made by `create` and `store`. -/
def Inner : Monitor.Action ThreadParty LatchCall → Prop
  | .call _ _ => False
  | .lock _ | .test _ _ | .wake _ | .unlock _ => True

/-- The kernel numbers threads from one. -/
def Enabled (thread : Thread) : Action → Prop
  | .start | .join => thread.starter = .outside
  | .create _ => thread.starter = .create
  | .store tid => thread.child = .store ∧ 0 < tid
  | .latch action => Inner action ∧ CountDownLatch.Enabled thread.latch action
  | .check => thread.starter = .check
  | .finish => thread.child = .work
  | .joined => thread.starter = .joining ∧ thread.child = .finished

instance (action : Monitor.Action ThreadParty LatchCall) : Decidable (Inner action) :=
  match action with
  | .call _ _ => isFalse id
  | .lock _ | .test _ _ | .wake _ | .unlock _ => isTrue trivial

instance (thread : Thread) (action : Action) :
    Decidable (thread.Enabled action) :=
  match action with
  | .start | .join | .create _ | .check | .finish =>
      inferInstanceAs (Decidable (_ = _))
  | .store _ | .joined => inferInstanceAs (Decidable (_ ∧ _))
  | .latch action =>
      inferInstanceAs (Decidable (Inner action ∧
        CountDownLatch.machine.enabled thread.latch action))

/-- The two threads and the object they share as a machine. -/
def machine : Machine Thread Action ThreadFault where
  enabled := Enabled
  step := step

instance (thread : Thread) (action : Action) :
    Decidable (machine.enabled thread action) :=
  inferInstanceAs (Decidable (thread.Enabled action))

/-- What a step does. -/
inductive Moves (thread : Thread) : Action → Thread → Prop where
  | start (outside : thread.starter = .outside)
      (fresh : thread.started = false) :
      Moves thread .start
        { thread with started := true, starter := .create }
  | create (creating : thread.starter = .create) :
      Moves thread (.create true)
        { thread with
          starter := .wait
          child := .store
          latch := thread.latch.set .starter (.entering .wait) }
  | store {tid : Int} (storing : thread.child = .store) (positive : 0 < tid) :
      Moves thread (.store tid)
        { thread with
          tid
          child := .countDown
          latch := thread.latch.set .started (.entering .countDown) }
  | latch {action : Monitor.Action ThreadParty LatchCall}
      {latch : Monitor.State ThreadParty Int LatchCall LatchResult}
      (inner : Inner action)
      (enabled : CountDownLatch.machine.enabled thread.latch action)
      (stepped : CountDownLatch.machine.step thread.latch action = .ok latch) :
      Moves thread (.latch action) ({ thread with latch }.advance action)
  | check (checking : thread.starter = .check) :
      Moves thread .check { thread with starter := .outside }
  | finish (working : thread.child = .work) :
      Moves thread .finish { thread with child := .finished }
  | join (outside : thread.starter = .outside)
      (started : thread.started = true) :
      Moves thread .join
        { thread with joined := true, starter := .joining }
  | joined (joining : thread.starter = .joining) :
      Moves thread .joined { thread with starter := .outside }

theorem Moves.of_step {thread next : Thread} {action : Action}
    (enabled : thread.Enabled action) (stepped : thread.step action = .ok next) :
    thread.Moves action next := by
  cases action with
  | start =>
      simp only [step] at stepped
      split at stepped
      · cases stepped
      · next fresh =>
          cases Except.ok.inj stepped
          exact .start enabled (Bool.eq_false_iff.mpr fresh)
  | create success =>
      cases success with
      | false => cases stepped
      | true =>
          cases Except.ok.inj stepped
          exact .create enabled
  | store tid =>
      cases Except.ok.inj stepped
      exact .store enabled.1 enabled.2
  | latch action =>
      simp only [step] at stepped
      split at stepped
      · next latch moved =>
          cases Except.ok.inj stepped
          exact .latch enabled.1 enabled.2 moved
      · cases stepped
  | check =>
      simp only [step] at stepped
      split at stepped
      · cases Except.ok.inj stepped
        exact .check enabled
      · cases stepped
  | finish =>
      cases Except.ok.inj stepped
      exact .finish enabled
  | join =>
      simp only [step] at stepped
      split at stepped
      · next started =>
          split at stepped
          · cases stepped
          · cases Except.ok.inj stepped
            exact .join enabled started
      · cases stepped
  | joined =>
      cases Except.ok.inj stepped
      exact .joined enabled.1

/-- The caller of `start` is behind the wait at the latch. -/
def Passed (thread : Thread) : Prop :=
  (thread.latch.place .starter).done = true ∨
    thread.started = true ∧ thread.starter ≠ .create ∧ thread.starter ≠ .wait

/-- How the stages of the two threads, the latch and the object agree. -/
structure Handshake (thread : Thread) : Prop where
  latchRun : ∃ actions,
    CountDownLatch.machine.Run (.new 1) actions thread.latch
  starter : (thread.latch.place .starter).call =
    if thread.starter = .wait then some .wait else none
  child : (thread.latch.place .started).call =
    if thread.child = .countDown then some .countDown else none
  counted : thread.latch.value =
    if thread.child.past || (thread.latch.place .started).done then 0 else 1
  stored : thread.child ≠ .absent → thread.child ≠ .store → 0 < thread.tid
  passed : thread.Passed → thread.child.past = true
  started : thread.started = false → thread.starter = .outside
  absent : thread.child = .absent ↔
    thread.started = false ∨ thread.starter = .create

namespace Handshake

variable {thread next : Thread} {action : Action}

theorem new : Handshake .new := by
  refine ⟨⟨[], .refl⟩, rfl, rfl, rfl, ?_, ?_, ?_, ?_⟩
  · intro exists_child
    exact absurd rfl exists_child
  · rintro (done | ⟨started, _⟩)
    · cases done
    · cases started
  · intro _
    rfl
  · simp [Thread.new]

theorem starter_outside (holds : thread.Handshake)
    (stage : thread.starter ≠ .wait) :
    thread.latch.place .starter = .outside := by
  apply Monitor.Place.eq_outside_of_call
  rw [holds.starter, if_neg stage]

theorem child_outside (holds : thread.Handshake)
    (stage : thread.child ≠ .countDown) :
    thread.latch.place .started = .outside := by
  apply Monitor.Place.eq_outside_of_call
  rw [holds.child, if_neg stage]

theorem exclusive (holds : thread.Handshake) :
    Monitor.Exclusive thread.latch := by
  obtain ⟨actions, run⟩ := holds.latchRun
  exact Monitor.run_exclusive run

theorem started_of_stage (holds : thread.Handshake)
    (stage : thread.starter ≠ .outside) : thread.started = true := by
  cases fresh : thread.started with
  | true => rfl
  | false => exact absurd (holds.started fresh) stage

/-- A call of the latch by a thread that is not in one continues its run. -/
theorem latch_call (holds : thread.Handshake) {party : ThreadParty} (call : LatchCall)
    (outside : thread.latch.place party = .outside) :
    ∃ actions, CountDownLatch.machine.Run (.new 1) actions
      (thread.latch.set party (.entering call)) := by
  obtain ⟨actions, run⟩ := holds.latchRun
  have enabled : CountDownLatch.machine.enabled thread.latch
      (.call party call) := congrArg Monitor.Place.idle outside
  exact ⟨_, .step run enabled rfl⟩

section LatchStep

variable {latch : Monitor.State ThreadParty Int LatchCall LatchResult}
variable {move : Monitor.Action ThreadParty LatchCall}

theorem call_of_testing (holds : thread.Handshake) {party : ThreadParty}
    {call : LatchCall} (testing : thread.latch.place party = .testing call) :
    (party = .starter ∧ call = .wait ∧ thread.starter = .wait) ∨
      (party = .started ∧ call = .countDown ∧ thread.child = .countDown) := by
  cases party with
  | starter =>
      have made := holds.starter
      rw [testing] at made
      split at made
      · next waits => exact .inl ⟨rfl, Option.some.inj made, waits⟩
      · cases made
  | started =>
      have made := holds.child
      rw [testing] at made
      split at made
      · next counts => exact .inr ⟨rfl, Option.some.inj made, counts⟩
      · cases made

/-- The count is one until the new thread has counted it down. -/
theorem counted_moves (holds : thread.Handshake)
    (moves : CountDownLatch.Moves thread.latch move latch)
    (inner : Inner move) (stays : move ≠ .unlock .started) :
    latch.value =
      if thread.child.past || (latch.place .started).done then 0 else 1 := by
  have counted := holds.counted
  cases moves with
  | call outside => cases inner
  | @lock party call queued free =>
      cases party with
      | starter => simpa [Monitor.State.set] using counted
      | started =>
          have undone : (thread.latch.place .started).done = false := by
            rcases queued with place | place
            · rw [place]
              rfl
            · rw [place]
              rfl
          rw [undone] at counted
          simpa [Monitor.State.set, Monitor.Place.done] using counted
  | @perform party chosen call work testing ready performed picks =>
      rcases holds.call_of_testing testing with
        ⟨rfl, rfl, waits⟩ | ⟨rfl, rfl, counts⟩
      · cases Except.ok.inj performed
        simpa [Monitor.State.set, Monitor.State.notify] using counted
      · rw [testing, counts] at counted
        have one : thread.latch.value = 1 := counted
        simp only [CountDownLatch, one] at performed
        cases Except.ok.inj performed
        simp [Monitor.State.set, Monitor.Place.done]
  | @wait party call testing unready =>
      rcases holds.call_of_testing testing with
        ⟨rfl, rfl, waits⟩ | ⟨rfl, rfl, counts⟩
      · simpa [Monitor.State.set] using counted
      · cases unready
  | @wake party call asleep =>
      cases party with
      | starter => simpa [Monitor.State.set] using counted
      | started =>
          rw [asleep] at counted
          simpa [Monitor.State.set, Monitor.Place.done] using counted
  | @unlock party call result leaving =>
      cases party with
      | starter => simpa [Monitor.State.set] using counted
      | started => exact absurd rfl stays

/-- The starter gets through the latch only when the new thread is past it. -/
theorem passed_moves (holds : thread.Handshake)
    (moves : CountDownLatch.Moves thread.latch move latch)
    (inner : Inner move)
    (passes : (latch.place .starter).done = true) :
    (thread.latch.place .starter).done = true ∨ thread.child.past = true := by
  cases moves with
  | call outside => cases inner
  | @lock party call queued free =>
      cases party with
      | starter =>
          simp [Monitor.State.set, Monitor.Place.done] at passes
      | started =>
          left
          simpa [Monitor.State.set] using passes
  | @perform party chosen call work testing ready performed picks =>
      rcases holds.call_of_testing testing with
        ⟨rfl, rfl, waits⟩ | ⟨rfl, rfl, counts⟩
      · right
        have down : thread.latch.value ≤ 0 := by
          simpa [CountDownLatch] using ready
        have alone : (thread.latch.place .started).done = false := by
          cases place : thread.latch.place .started with
          | leaving call result =>
              have same := holds.exclusive.unique
                (congrArg Monitor.Place.inside testing)
                (congrArg Monitor.Place.inside place)
              cases same
          | outside | entering _ | testing _ | waiting _ | woken _ => rfl
        have counted := holds.counted
        rw [alone, Bool.or_false] at counted
        cases past : thread.child.past with
        | true => rfl
        | false =>
            rw [past] at counted
            simp [counted] at down
      · left
        simpa [Monitor.State.set,
          Monitor.view_notify Monitor.Place.done Monitor.done_wake] using passes
  | @wait party call testing unready =>
      cases party with
      | starter =>
          simp [Monitor.State.set, Monitor.Place.done] at passes
      | started =>
          left
          simpa [Monitor.State.set] using passes
  | @wake party call asleep =>
      cases party with
      | starter =>
          simp [Monitor.State.set, Monitor.Place.done] at passes
      | started =>
          left
          simpa [Monitor.State.set] using passes
  | @unlock party call result leaving =>
      cases party with
      | starter =>
          simp [Monitor.State.set, Monitor.Place.done] at passes
      | started =>
          left
          simpa [Monitor.State.set] using passes

theorem starter_unlocks (holds : thread.Handshake)
    (enabled : CountDownLatch.machine.enabled thread.latch (.unlock .starter))
    (stepped : CountDownLatch.machine.step thread.latch (.unlock .starter) =
      .ok latch) :
    Handshake { thread with latch, starter := .check } := by
  obtain ⟨actions, run⟩ := holds.latchRun
  have continued := run.step enabled stepped
  have moves : CountDownLatch.Moves thread.latch (.unlock .starter) latch :=
    .of_step enabled stepped
  cases moves with
  | @unlock party call result leaving =>
      have behind : thread.Passed := .inl (congrArg Monitor.Place.done leaving)
      have past := holds.passed behind
      have made := holds.starter
      rw [leaving] at made
      have waits : thread.starter = .wait := by
        by_contra elsewhere
        rw [if_neg elsewhere] at made
        cases made
      have started := holds.started_of_stage (by simp [waits])
      refine ⟨⟨_, continued⟩, ?_, holds.child, holds.counted, holds.stored,
        fun _ => past, ?_, ?_⟩
      · simp [Monitor.State.set, Monitor.Place.call]
      · intro fresh
        rw [started] at fresh
        cases fresh
      · simp [ChildStage.ne_absent_of_past past, started]

theorem child_unlocks (holds : thread.Handshake)
    (enabled : CountDownLatch.machine.enabled thread.latch (.unlock .started))
    (stepped : CountDownLatch.machine.step thread.latch (.unlock .started) =
      .ok latch) :
    Handshake { thread with latch, child := .work } := by
  obtain ⟨actions, run⟩ := holds.latchRun
  have continued := run.step enabled stepped
  have moves : CountDownLatch.Moves thread.latch (.unlock .started) latch :=
    .of_step enabled stepped
  cases moves with
  | @unlock party call result leaving =>
      have made := holds.child
      rw [leaving] at made
      have counts : thread.child = .countDown := by
        by_contra elsewhere
        rw [if_neg elsewhere] at made
        cases made
      have zero := holds.counted
      rw [leaving, counts] at zero
      refine ⟨⟨_, continued⟩, holds.starter, ?_, zero, ?_, fun _ => rfl,
        holds.started, ?_⟩
      · simp [Monitor.State.set, Monitor.Place.call]
      · intro _ _
        exact holds.stored (by simp [counts]) (by simp [counts])
      · have late := holds.absent.not.mp (by simp [counts])
        simpa using late

theorem latch_moves (holds : thread.Handshake)
    (inner : Inner move)
    (enabled : CountDownLatch.machine.enabled thread.latch move)
    (stepped : CountDownLatch.machine.step thread.latch move = .ok latch) :
    Handshake ({ thread with latch }.advance move) := by
  have begins (party : ThreadParty) (call : LatchCall) :
      move ≠ .call party call := by
    rintro rfl
    exact inner
  by_cases starts : move = .unlock .starter
  · subst starts
    exact holds.starter_unlocks enabled stepped
  · by_cases ends : move = .unlock .started
    · subst ends
      exact holds.child_unlocks enabled stepped
    · have moves := Monitor.Moves.of_step enabled stepped
      obtain ⟨actions, run⟩ := holds.latchRun
      have unchanged : { thread with latch }.advance move =
          { thread with latch } := by
        cases move with
        | call party call => cases inner
        | unlock party =>
            cases party with
            | starter => exact absurd rfl starts
            | started => exact absurd rfl ends
        | lock party => rfl
        | test party chosen => rfl
        | wake party => rfl
      rw [unchanged]
      refine ⟨⟨_, run.step enabled stepped⟩, ?_, ?_,
        holds.counted_moves moves inner ends, holds.stored, ?_, holds.started,
        holds.absent⟩
      · exact (moves.call_eq (begins .starter) starts).trans holds.starter
      · exact (moves.call_eq (begins .started) ends).trans holds.child
      · rintro (passes | behind)
        · rcases holds.passed_moves moves inner passes with before | past
          · exact holds.passed (.inl before)
          · exact past
        · exact holds.passed (.inr behind)

end LatchStep

/-- Behind the latch the caller of `start` moves on by itself. -/
theorem behind (holds : thread.Handshake) {stage : StarterStage} {joined : Bool}
    (started : thread.started = true)
    (before : thread.starter ≠ .create ∧ thread.starter ≠ .wait)
    (after : stage ≠ .create ∧ stage ≠ .wait) :
    Handshake { thread with starter := stage, joined } := by
  have outside := holds.starter_outside before.2
  have past := holds.passed (.inr ⟨started, before⟩)
  refine ⟨holds.latchRun, ?_, holds.child, holds.counted, holds.stored,
    fun _ => past, ?_, ?_⟩
  · simp [outside, Monitor.Place.call, after.2]
  · intro fresh
    rw [started] at fresh
    cases fresh
  · simp [ChildStage.ne_absent_of_past past, started, after.1]

theorem moves (holds : thread.Handshake) (moves : thread.Moves action next) :
    next.Handshake := by
  cases moves with
  | start outside fresh =>
      have place := holds.starter_outside (by simp [outside])
      have absent := holds.absent.mpr (.inl fresh)
      refine ⟨holds.latchRun, ?_, holds.child, holds.counted, holds.stored, ?_,
        ?_, by simp [absent]⟩
      · simp [place, Monitor.Place.call]
      · rintro (done | ⟨_, early, _⟩)
        · simp [place, Monitor.Place.done] at done
        · exact absurd rfl early
      · intro started
        cases started
  | create creating =>
      have absent := holds.absent.mpr (.inr creating)
      have outside := holds.starter_outside (by simp [creating])
      have started := holds.started_of_stage (by simp [creating])
      refine ⟨holds.latch_call .wait outside, ?_, ?_, ?_, ?_, ?_, ?_, ?_⟩
      · simp [Monitor.State.set, Monitor.Place.call]
      · simpa [Monitor.State.set, absent] using holds.child
      · simpa [Monitor.State.set, absent, ChildStage.past] using holds.counted
      · intro _ storing
        exact absurd rfl storing
      · rintro (done | ⟨_, _, waiting⟩)
        · simp [Monitor.State.set, Monitor.Place.done] at done
        · exact absurd rfl waiting
      · intro fresh
        rw [started] at fresh
        cases fresh
      · simp [started]
  | store storing positive =>
      have outside := holds.child_outside (by simp [storing])
      have counted := holds.counted
      rw [storing, outside] at counted
      refine ⟨holds.latch_call .countDown outside, ?_, ?_, ?_, ?_, ?_,
        holds.started, ?_⟩
      · simpa [Monitor.State.set] using holds.starter
      · simp [Monitor.State.set, Monitor.Place.call]
      · simpa [Monitor.State.set, Monitor.Place.done, ChildStage.past] using
          counted
      · intro _ _
        exact positive
      · intro passed
        have past : thread.child.past = true := by
          apply holds.passed
          rcases passed with done | behind
          · left
            simpa [Monitor.State.set] using done
          · exact .inr behind
        rw [storing] at past
        cases past
      · have late := holds.absent.not.mp (by simp [storing])
        simpa using late
  | latch inner enabled stepped => exact holds.latch_moves inner enabled stepped
  | check checking =>
      have started := holds.started_of_stage (by simp [checking])
      exact holds.behind started (by simp [checking]) (by simp)
  | finish working =>
      have outside := holds.child_outside (by simp [working])
      have counted := holds.counted
      rw [working] at counted
      refine ⟨holds.latchRun, holds.starter, ?_, counted, ?_, fun _ => rfl,
        holds.started, ?_⟩
      · simp [outside, Monitor.Place.call]
      · intro _ _
        exact holds.stored (by simp [working]) (by simp [working])
      · have late := holds.absent.not.mp (by simp [working])
        simpa using late
  | join outside started =>
      exact holds.behind started (by simp [outside]) (by simp)
  | joined joining =>
      have started := holds.started_of_stage (by simp [joining])
      exact holds.behind started (by simp [joining]) (by simp)

end Handshake

theorem run_handshake {thread : Thread} {actions : List Action}
    (run : machine.Run .new actions thread) : thread.Handshake := by
  apply Machine.Run.state_invariant Handshake Handshake.new ?_ run
  intro thread action next holds enabled stepped
  exact holds.moves (.of_step enabled stepped)

/-- A second `start`, a `join` without a `start`, a second `join`, and a
`pthread_create` that fails. -/
def Misused (thread : Thread) : Action → Prop
  | .start => thread.started = true
  | .create success => success = false
  | .join => thread.started = false ∨ thread.joined = true
  | .store _ | .latch _ | .check | .finish | .joined => False

/-- What moves `start` on while it waits at the latch. -/
def Advances : Action → Prop
  | .store _ => True
  | .latch (.lock _) | .latch (.test _ _) | .latch (.unlock _) => True
  | .latch (.wake _) | .latch (.call _ _) => False
  | .start | .create _ | .check | .finish | .join | .joined => False

theorem Handshake.latch_step {thread : Thread} (holds : thread.Handshake)
    {move : Monitor.Action ThreadParty LatchCall}
    (enabled : CountDownLatch.machine.enabled thread.latch move) :
    ∃ latch, CountDownLatch.step thread.latch move = .ok latch := by
  cases move with
  | call party call => exact ⟨_, rfl⟩
  | wake party => exact ⟨_, rfl⟩
  | unlock party => exact ⟨_, rfl⟩
  | lock party =>
      cases place : thread.latch.place party <;>
        simp only [Monitor.step, place, Except.ok.injEq, exists_eq']
  | test party chosen =>
      obtain ⟨call, testing⟩ :=
        Monitor.testing_of_inside enabled.1.1 enabled.1.2
      rcases holds.call_of_testing testing with
        ⟨rfl, rfl, waits⟩ | ⟨rfl, rfl, counts⟩
      · by_cases down : thread.latch.value ≤ 0
        · simp [Monitor.step, testing, CountDownLatch, down]
        · simp [Monitor.step, testing, CountDownLatch, down]
      · have counted := holds.counted
        rw [testing, counts] at counted
        have one : thread.latch.value = 1 := counted
        simp [Monitor.step, testing, CountDownLatch, one]

/-- The assert on the id in `start` never fails, and when `start` is behind its
latch the id is stored and the new thread has left the object for good. -/
theorem run_started {thread : Thread} {actions : List Action}
    (run : machine.Run .new actions thread) :
    (∀ action fault, thread.Enabled action →
      thread.step action = .error fault → thread.Misused action) ∧
    (thread.Passed → 0 < thread.tid ∧ thread.child.past = true ∧
      thread.latch.place .started = .outside) := by
  have holds := run_handshake run
  have behind : thread.Passed → 0 < thread.tid ∧ thread.child.past = true ∧
      thread.latch.place .started = .outside := by
    intro passed
    have past := holds.passed passed
    refine ⟨?_, past, ?_⟩
    · apply holds.stored
      · exact ChildStage.ne_absent_of_past past
      · intro storing
        rw [storing] at past
        cases past
    · apply holds.child_outside
      intro counts
      rw [counts] at past
      cases past
  refine ⟨?_, behind⟩
  intro action fault enabled failed
  cases action with
  | start =>
      simp only [step] at failed
      split at failed
      · next started => exact started
      · cases failed
  | create success =>
      cases success with
      | false => rfl
      | true => cases failed
  | store tid => cases failed
  | latch move =>
      obtain ⟨latch, moved⟩ := holds.latch_step enabled.2
      simp [step, moved] at failed
  | check =>
      have checking : thread.starter = .check := enabled
      have started := holds.started_of_stage (by simp [checking])
      have positive := (behind (.inr ⟨started, by simp [checking]⟩)).1
      simp [step, positive] at failed
  | finish => cases failed
  | join =>
      simp only [step] at failed
      split at failed
      · split at failed
        · next joined => exact .inr joined
        · cases failed
      · next started => exact .inl (Bool.eq_false_iff.mpr started)
  | joined => cases failed

/-- `start` waits, is woken by the new thread, and returns. -/
theorem start_returns : ∃ thread : Thread,
    (∀ action fault, thread.Enabled action →
      thread.step action = .error fault → thread.Misused action) ∧
    thread.Passed ∧ 0 < thread.tid ∧ thread.child.past = true ∧
    thread.latch.place .started = .outside := by
  have found : (machine.execute new [.start, .create true,
      .latch (.lock .starter), .latch (.test .starter none), .store 4711,
      .latch (.lock .started), .latch (.test .started none),
      .latch (.unlock .started), .latch (.lock .starter),
      .latch (.test .starter none), .latch (.unlock .starter), .check]).any
      (fun thread => thread.started = true ∧ thread.starter = .outside) =
        true := by
    decide +kernel
  obtain ⟨thread, run, reached⟩ := Machine.run_of_execute found
  obtain ⟨started, outside⟩ := of_decide_eq_true reached
  have passed : thread.Passed := .inr ⟨started, by simp [outside]⟩
  obtain ⟨blame, behind⟩ := run_started run
  exact ⟨thread, blame, passed, behind passed⟩

/-- `start` is never blocked for good: while it waits, the new thread can store
its id or one of the two threads can move on in the latch. -/
theorem run_advances {thread : Thread} {actions : List Action}
    (run : machine.Run .new actions thread) (waits : thread.starter = .wait) :
    ∃ action, Advances action ∧ thread.Enabled action := by
  have holds := run_handshake run
  by_contra blocked
  push Not at blocked
  have stuck : CountDownLatch.Stuck thread.latch := by
    intro party
    refine ⟨?_, ?_, ?_⟩
    · intro enabled
      exact blocked (.latch (.lock party)) trivial ⟨trivial, enabled⟩
    · intro chosen enabled
      exact blocked (.latch (.test party chosen)) trivial ⟨trivial, enabled⟩
    · intro enabled
      exact blocked (.latch (.unlock party)) trivial ⟨trivial, enabled⟩
  have storing : thread.child ≠ .store := by
    intro storing
    exact blocked (.store 1) trivial ⟨storing, by decide⟩
  obtain ⟨before, latch⟩ := holds.latchRun
  have rests := stuck.still holds.exclusive
  have closed {party : ThreadParty} {call : LatchCall}
      (waiting : thread.latch.place party = .waiting call) :
      CountDownLatch.ready thread.latch.value call = false :=
    stuck.unready CountDownLatch.discipline latch waiting
  have counting : thread.child ≠ .countDown := by
    intro counts
    have made := holds.child
    rw [if_pos counts] at made
    rcases rests .started with place | ⟨call, waiting⟩
    · rw [place] at made
      cases made
    · have unready := closed waiting
      rw [waiting] at made
      cases made
      cases unready
  have shut : thread.child.past = false := by
    have made := holds.starter
    rw [if_pos waits] at made
    rcases rests .starter with place | ⟨call, waiting⟩
    · rw [place] at made
      cases made
    · have unready := closed waiting
      rw [waiting] at made
      cases made
      cases past : thread.child.past with
      | false => rfl
      | true =>
          have counted := holds.counted
          simp only [past, Bool.true_or, if_true] at counted
          simp [CountDownLatch, counted] at unready
  cases child : thread.child with
  | absent =>
      rcases holds.absent.mp child with fresh | creating
      · have outside := holds.started fresh
        rw [waits] at outside
        cases outside
      · rw [waits] at creating
        cases creating
  | store => exact storing child
  | countDown => exact counting child
  | work | finished =>
      rw [child] at shut
      cases shut

/-- The new thread has not run yet and `start` sleeps at the latch. -/
theorem start_sleeps : ∃ thread : Thread, thread.starter = .wait ∧
    (thread.latch.place .starter).asleep = true ∧
    ∃ action, Advances action ∧ thread.Enabled action := by
  have found : (machine.execute new [.start, .create true,
      .latch (.lock .starter), .latch (.test .starter none)]).any
      (fun thread => thread.starter = .wait ∧
        (thread.latch.place .starter).asleep = true) = true := by
    decide +kernel
  obtain ⟨thread, run, reached⟩ := Machine.run_of_execute found
  obtain ⟨waits, asleep⟩ := of_decide_eq_true reached
  exact ⟨thread, waits, asleep, run_advances run waits⟩

end Thread

end Muduo
