import Muduo.Base.Thread
import Muduo.Library.Refinement
import Muduo.Net.EventLoopThread

/-!
# `startLoop` and the thread that it starts

`EventLoopThread::startLoop` starts the thread, takes the lock and waits until
`threadFunc` has published the loop.  Here the start of the thread, the lock and
the condition variable are modelled step by step; `Net.EventLoopThread` sees of
them only when the pointer is published, handed out and cleared.
-/

namespace Muduo

open Library

universe u

inductive PointerCall where
  | startLoop
  | publish
  | clear
  deriving DecidableEq, Repr

/-- `mutex_`, `cond_` and whether `loop_` is not `NULL`. -/
def LoopPointer : Monitor Bool PointerCall Bool Empty where
  ready published
    | .startLoop => published
    | .publish | .clear => true
  perform published
    | .startLoop =>
        .ok { value := published, result := published, notice := .nobody }
    | .publish => .ok { value := true, result := true, notice := .one }
    | .clear => .ok { value := false, result := false, notice := .nobody }

/-- Where `threadFunc` stands; each stage is named for what it does next, or for
the block under the lock that it is in. -/
inductive FuncStage where
  | construct
  | callback
  | lock
  | publishing
  | running
  | lockAgain
  | clearing
  | finished
  deriving DecidableEq, Repr

/-- `base` is `thread_`; `asked` says that `startLoop` is behind `thread_.start()`,
`owned` that the owner has read `loop_`. -/
structure StartingLoop (Functor : Type u) where
  base : Thread
  stage : FuncStage
  worker : LoopThread Functor
  pointer : Monitor.State ThreadParty Bool PointerCall Bool
  asked : Bool
  owned : Bool

inductive StartingAction (Functor : Type u) where
  | base (action : Thread.Action)
  | ask
  | construct
  | returnCallback
  | lock
  | worker (action : LoopAction Functor)
  | returnLoop
  | lockAgain
  | pointer (action : Monitor.Action ThreadParty PointerCall)
  | destruct

variable {Functor : Type u}

namespace StartingLoop

def new : StartingLoop Functor :=
  { base := .new
    stage := .construct
    worker := .new
    pointer := .new false
    asked := false
    owned := false }

/-- The stage as `Net.EventLoopThread` knows it. -/
def viewStage (state : StartingLoop Functor) : ThreadStage :=
  match state.stage with
  | .construct => .construct
  | .callback => .callback
  | .lock => .publish
  | .publishing =>
      if (state.pointer.place .started).done then .notify else .publish
  | .running => .running
  | .lockAgain => .clear
  | .clearing =>
      if (state.pointer.place .started).done then .finished else .clear
  | .finished => .finished

def view (state : StartingLoop Functor) : EventLoopThread Functor :=
  { stage := state.viewStage
    worker := state.worker
    published := state.pointer.value
    owned := state.owned }

/-- What comes after a step under the lock: `startLoop` has read the pointer,
or `threadFunc` leaves its block. -/
def advance (state : StartingLoop Functor) :
    Monitor.Action ThreadParty PointerCall → StartingLoop Functor
  | .test .starter _ =>
      if (state.pointer.place .starter).done then { state with owned := true }
      else state
  | .unlock .started =>
      match state.stage with
      | .publishing =>
          { state with stage := .running, worker := state.worker.step .enter }
      | .clearing => { state with stage := .finished }
      | _ => state
  | .test .started _ | .unlock .starter | .call _ _ | .lock _ | .wake _ => state

@[simp] theorem advance_pointer (state : StartingLoop Functor)
    (move : Monitor.Action ThreadParty PointerCall) :
    (state.advance move).pointer = state.pointer := by
  cases move with
  | call party call => rfl
  | lock party => rfl
  | wake party => rfl
  | test party chosen =>
      cases party with
      | starter =>
          simp only [advance]
          split <;> rfl
      | started => rfl
  | unlock party =>
      cases party with
      | starter => rfl
      | started =>
          simp only [advance]
          split <;> rfl

def step (state : StartingLoop Functor) :
    StartingAction Functor → Except ThreadFault (StartingLoop Functor)
  | .base action =>
      match state.base.step action with
      | .ok base => .ok { state with base }
      | .error fault => .error fault
  | .ask =>
      .ok { state with
        asked := true
        pointer := state.pointer.set .starter (.entering .startLoop) }
  | .construct => .ok { state with stage := .callback }
  | .returnCallback => .ok { state with stage := .lock }
  | .lock =>
      .ok { state with
        stage := .publishing
        pointer := state.pointer.set .started (.entering .publish) }
  | .worker action => .ok { state with worker := state.worker.step action }
  | .returnLoop => .ok { state with stage := .lockAgain }
  | .lockAgain =>
      .ok { state with
        stage := .clearing
        pointer := state.pointer.set .started (.entering .clear) }
  | .pointer action =>
      match LoopPointer.step state.pointer action with
      | .ok pointer => .ok ({ state with pointer }.advance action)
      | .error fault => nomatch fault
  | .destruct => .ok { state with owned := true }

/-- Calls under the lock are made by `ask`, `lock` and `lockAgain`. -/
def Inner : Monitor.Action ThreadParty PointerCall → Prop
  | .call _ _ => False
  | .lock _ | .test _ _ | .wake _ | .unlock _ => True

/-- `threadFunc` is the function that `thread_` runs. -/
def Runs (state : StartingLoop Functor) : Thread.Action → Prop
  | .finish => state.stage = .finished
  | .start | .create _ | .store _ | .latch _ | .check | .join | .joined => True

/-- `startLoop` is called once, as it asserts. -/
def Enabled (state : StartingLoop Functor) : StartingAction Functor → Prop
  | .base action => state.base.Enabled action ∧ state.Runs action
  | .ask => state.base.started = true ∧ state.base.starter = .outside ∧
      state.asked = false
  | .construct => state.base.child = .work ∧ state.stage = .construct
  | .returnCallback => state.stage = .callback ∧ state.worker.testing = false
  | .lock => state.stage = .lock
  | .worker action => state.view.Allows action ∧ state.worker.Enabled action
  | .returnLoop => state.stage = .running ∧ state.worker.point = .outside
  | .lockAgain => state.stage = .lockAgain
  | .pointer action => Inner action ∧ LoopPointer.Enabled state.pointer action
  | .destruct => state.pointer.value = true

instance (state : StartingLoop Functor) (action : Thread.Action) :
    Decidable (state.Runs action) :=
  match action with
  | .finish => inferInstanceAs (Decidable (_ = _))
  | .start | .create _ | .store _ | .latch _ | .check | .join | .joined =>
      isTrue trivial

instance (action : Monitor.Action ThreadParty PointerCall) :
    Decidable (Inner action) :=
  match action with
  | .call _ _ => isFalse id
  | .lock _ | .test _ _ | .wake _ | .unlock _ => isTrue trivial

instance (state : StartingLoop Functor) (action : StartingAction Functor) :
    Decidable (state.Enabled action) :=
  match action with
  | .base action =>
      inferInstanceAs (Decidable (state.base.Enabled action ∧ state.Runs action))
  | .ask => inferInstanceAs (Decidable (_ ∧ _ ∧ _))
  | .construct | .returnCallback | .returnLoop =>
      inferInstanceAs (Decidable (_ ∧ _))
  | .lock | .lockAgain | .destruct => inferInstanceAs (Decidable (_ = _))
  | .worker action => inferInstanceAs
      (Decidable (state.view.Allows action ∧ state.worker.Enabled action))
  | .pointer action => inferInstanceAs
      (Decidable (Inner action ∧
        LoopPointer.machine.enabled state.pointer action))

/-- The owner, the new thread, and what they share. -/
def machine (Functor : Type u) :
    Machine (StartingLoop Functor) (StartingAction Functor) ThreadFault where
  enabled := Enabled
  step := step

instance (state : StartingLoop Functor) (action : StartingAction Functor) :
    Decidable ((machine Functor).enabled state action) :=
  inferInstanceAs (Decidable (state.Enabled action))

/-- What `Net.EventLoopThread` sees of a step. -/
def visible (state : StartingLoop Functor) :
    StartingAction Functor → Option (ThreadAction Functor)
  | .construct => some .construct
  | .returnCallback => some .returnCallback
  | .worker action => some (.worker action)
  | .returnLoop => some .returnLoop
  | .destruct => some .destruct
  | .pointer (.test .starter _) =>
      if state.pointer.value then some .startLoop else none
  | .pointer (.test .started _) =>
      match state.stage with
      | .publishing => some .publish
      | .clearing => some .clear
      | _ => none
  | .pointer (.unlock .started) =>
      match state.stage with
      | .publishing => some .notify
      | _ => none
  | .base _ | .ask | .lock | .lockAgain | .pointer _ => none

/-- The call that `threadFunc` makes under the lock. -/
def blockCall : FuncStage → Option PointerCall
  | .publishing => some .publish
  | .clearing => some .clear
  | .construct | .callback | .lock | .running | .lockAgain | .finished => none

/-- Whether `loop_` is set, where `done` says that the block under the lock has
done its work. -/
def pointsTo (done : Bool) : FuncStage → Bool
  | .construct | .callback | .lock | .finished => false
  | .running | .lockAgain => true
  | .publishing => done
  | .clearing => !done

/-- How the stage, the lock and the pointer agree.  While the owner sleeps in
`startLoop` the pointer is not set. -/
structure Agrees (state : StartingLoop Functor) : Prop where
  pointerRun : ∃ actions,
    LoopPointer.machine.Run (.new false) actions state.pointer
  starter : (state.pointer.place .starter).call = none ∨
    (state.pointer.place .starter).call = some .startLoop
  started : (state.pointer.place .started).call = blockCall state.stage
  value : state.pointer.value =
    pointsTo (state.pointer.place .started).done state.stage
  asleep : (state.pointer.place .starter).asleep = true →
    state.pointer.value = false
  unasked : state.asked = false → state.pointer.place .starter = .outside

theorem new_agrees : (new : StartingLoop Functor).Agrees where
  pointerRun := ⟨[], .refl⟩
  starter := .inl rfl
  started := rfl
  value := rfl
  asleep asleep := by cases asleep
  unasked _ := rfl

/-- A step is seen as the action that `visible` tells, or not at all. -/
def Matched (state next : StartingLoop Functor) :
    Option (ThreadAction Functor) → Prop
  | none => next.view = state.view
  | some seen => state.view.Enabled seen ∧ next.view = state.view.step seen

namespace Agrees

variable {state : StartingLoop Functor}
variable {pointer : Monitor.State ThreadParty Bool PointerCall Bool}
variable {move : Monitor.Action ThreadParty PointerCall}

theorem exclusive (agrees : state.Agrees) : Monitor.Exclusive state.pointer := by
  obtain ⟨actions, run⟩ := agrees.pointerRun
  exact Monitor.run_exclusive run

/-- A call under the lock by a thread that is not in one. -/
theorem pointer_call (agrees : state.Agrees) {party : ThreadParty}
    (call : PointerCall)
    (outside : state.pointer.place party = .outside) :
    ∃ actions, LoopPointer.machine.Run (.new false) actions
      (state.pointer.set party (.entering call)) := by
  obtain ⟨actions, run⟩ := agrees.pointerRun
  have enabled : LoopPointer.machine.enabled state.pointer
      (.call party call) := congrArg Monitor.Place.idle outside
  exact ⟨_, .step run enabled rfl⟩

theorem started_outside (agrees : state.Agrees)
    (stage : blockCall state.stage = none) :
    state.pointer.place .started = .outside := by
  apply Monitor.Place.eq_outside_of_call
  rw [agrees.started, stage]

theorem call_of_testing (agrees : state.Agrees) {party : ThreadParty}
    {call : PointerCall} (testing : state.pointer.place party = .testing call) :
    (party = .starter ∧ call = .startLoop) ∨
      (party = .started ∧ call = .publish ∧ state.stage = .publishing) ∨
      (party = .started ∧ call = .clear ∧ state.stage = .clearing) := by
  cases party with
  | starter =>
      have made := agrees.starter
      rw [testing] at made
      rcases made with none | same
      · cases none
      · exact .inl ⟨rfl, Option.some.inj same⟩
  | started =>
      have made := agrees.started
      rw [testing] at made
      cases stage : state.stage with
      | publishing =>
          rw [stage] at made
          exact .inr (.inl ⟨rfl, Option.some.inj made, rfl⟩)
      | clearing =>
          rw [stage] at made
          exact .inr (.inr ⟨rfl, Option.some.inj made, rfl⟩)
      | construct | callback | lock | running | lockAgain | finished =>
          rw [stage] at made
          cases made

theorem quiet (agrees : state.Agrees)
    (run : ∃ actions, LoopPointer.machine.Run (.new false) actions pointer)
    (value : pointer.value = state.pointer.value)
    (calls : ∀ party, (pointer.place party).call =
      (state.pointer.place party).call)
    (done : (pointer.place .started).done =
      (state.pointer.place .started).done)
    (asleep : (pointer.place .starter).asleep = true →
      state.pointer.value = false) :
    Agrees { state with pointer } ∧
      Matched state { state with pointer } none := by
  constructor
  · refine ⟨run, ?_, ?_, ?_, ?_, ?_⟩
    · rw [calls .starter]
      exact agrees.starter
    · rw [calls .started]
      exact agrees.started
    · rw [value, done]
      exact agrees.value
    · intro sleeps
      rw [value]
      exact asleep sleeps
    · intro unasked
      apply Monitor.Place.eq_outside_of_call
      rw [calls .starter, agrees.unasked unasked]
      rfl
  · simp only [Matched, view, viewStage, value, done]

theorem reads (agrees : state.Agrees) {chosen : Option ThreadParty}
    (testing : state.pointer.place .starter = .testing .startLoop)
    (set : state.pointer.value = true)
    (moved : pointer = { state.pointer with
      value := state.pointer.value
      place := state.pointer.notify chosen .nobody }.set .starter
        (.leaving .startLoop state.pointer.value))
    (run : ∃ actions, LoopPointer.machine.Run (.new false) actions pointer) :
    Agrees ({ state with pointer }.advance (.test .starter chosen)) ∧
      Matched state ({ state with pointer }.advance (.test .starter chosen))
        (some .startLoop) := by
  have alone : (state.pointer.place .started).done = false := by
    cases place : state.pointer.place .started with
    | leaving call result =>
        have same := agrees.exclusive.unique
          (congrArg Monitor.Place.inside testing)
          (congrArg Monitor.Place.inside place)
        cases same
    | outside | entering _ | testing _ | waiting _ | woken _ => rfl
  have asked : state.asked ≠ false := by
    intro unasked
    rw [agrees.unasked unasked] at testing
    cases testing
  subst moved
  constructor
  · refine ⟨run, .inr rfl, agrees.started, agrees.value, ?_, ?_⟩
    · intro asleep
      cases asleep
    · intro unasked
      exact absurd unasked asked
  · have quiet : state.viewStage ≠ .notify := by
      unfold viewStage
      rw [alone]
      cases state.stage <;> simp
    exact ⟨⟨set, quiet⟩, rfl⟩

theorem publishes (agrees : state.Agrees) {chosen : Option ThreadParty}
    (testing : state.pointer.place .started = .testing .publish)
    (stage : state.stage = .publishing)
    (picks : state.pointer.Picks .one chosen)
    (moved : pointer = { state.pointer with
      value := true
      place := state.pointer.notify chosen .one }.set .started
        (.leaving .publish true))
    (run : ∃ actions, LoopPointer.machine.Run (.new false) actions pointer) :
    Agrees { state with pointer } ∧
      Matched state { state with pointer } (some .publish) := by
  have starter : (pointer.place .starter).call =
      (state.pointer.place .starter).call := by
    have kept : (state.pointer.notify chosen .one .starter).call =
        (state.pointer.place .starter).call :=
      Monitor.view_notify Monitor.Place.call Monitor.call_wake chosen .one
        .starter
    rw [moved]
    exact kept
  have awake : (pointer.place .starter).asleep = false := by
    rw [moved]
    show (state.pointer.notify chosen .one .starter).asleep = false
    cases chosen with
    | none => exact picks .starter
    | some party =>
        cases party with
        | starter => cases place : state.pointer.place .starter <;>
            simp [Monitor.State.notify, place, Monitor.Place.wake,
              Monitor.Place.asleep]
        | started =>
            have asleep : (state.pointer.place .started).asleep = true := picks
            rw [testing] at asleep
            cases asleep
  subst moved
  constructor
  · refine ⟨run, ?_, ?_, ?_, ?_, ?_⟩
    · rw [starter]
      exact agrees.starter
    · rw [stage]
      rfl
    · rw [stage]
      rfl
    · intro asleep
      rw [awake] at asleep
      cases asleep
    · intro unasked
      apply Monitor.Place.eq_outside_of_call
      rw [starter, agrees.unasked unasked]
      rfl
  · constructor
    · show state.viewStage = .publish
      simp [viewStage, stage, testing, Monitor.Place.done]
    · simp [view, viewStage, stage, Monitor.State.set, Monitor.Place.done,
        EventLoopThread.step]

theorem clears (agrees : state.Agrees)
    (testing : state.pointer.place .started = .testing .clear)
    (stage : state.stage = .clearing)
    (moved : pointer = { state.pointer with value := false }.set .started
      (.leaving .clear false))
    (run : ∃ actions, LoopPointer.machine.Run (.new false) actions pointer) :
    Agrees { state with pointer } ∧
      Matched state { state with pointer } (some .clear) := by
  subst moved
  constructor
  · refine ⟨run, agrees.starter, ?_, ?_, fun _ => rfl, agrees.unasked⟩
    · rw [stage]
      rfl
    · rw [stage]
      rfl
  · constructor
    · show state.viewStage = .clear
      simp [viewStage, stage, testing, Monitor.Place.done]
    · simp [view, viewStage, stage, Monitor.State.set, Monitor.Place.done,
        EventLoopThread.step]

theorem returns (agrees : state.Agrees) {call : PointerCall} {result : Bool}
    (leaving : state.pointer.place .starter = .leaving call result)
    (moved : pointer =
      { state.pointer.set .starter .outside with owner := none })
    (run : ∃ actions, LoopPointer.machine.Run (.new false) actions pointer) :
    Agrees { state with pointer } ∧
      Matched state { state with pointer } none := by
  have asked : state.asked ≠ false := by
    intro unasked
    rw [agrees.unasked unasked] at leaving
    cases leaving
  subst moved
  constructor
  · refine ⟨run, .inl rfl, agrees.started, agrees.value, ?_, ?_⟩
    · intro asleep
      cases asleep
    · intro unasked
      exact absurd unasked asked
  · rfl

theorem leaves (agrees : state.Agrees) {call : PointerCall} {result : Bool}
    (leaving : state.pointer.place .started = .leaving call result)
    (moved : pointer =
      { state.pointer.set .started .outside with owner := none })
    (run : ∃ actions, LoopPointer.machine.Run (.new false) actions pointer) :
    Agrees ({ state with pointer }.advance (.unlock .started)) ∧
      Matched state ({ state with pointer }.advance (.unlock .started))
        (state.visible (.pointer (.unlock .started))) := by
  have started := agrees.started
  have value := agrees.value
  rw [leaving] at started value
  subst moved
  cases stage : state.stage with
  | publishing =>
      rw [stage] at value
      simp only [advance, visible, stage]
      constructor
      · exact ⟨run, agrees.starter, rfl, value, agrees.asleep, agrees.unasked⟩
      · constructor
        · show state.viewStage = .notify
          simp [viewStage, stage, leaving, Monitor.Place.done]
        · rfl
  | clearing =>
      rw [stage] at value
      simp only [advance, visible, stage]
      constructor
      · exact ⟨run, agrees.starter, rfl, value, agrees.asleep, agrees.unasked⟩
      · simp [Matched, view, viewStage, stage, leaving, Monitor.State.set,
          Monitor.Place.done]
  | construct | callback | lock | running | lockAgain | finished =>
      rw [stage] at started
      cases started

theorem pointer_moves (agrees : state.Agrees) (inner : Inner move)
    (enabled : LoopPointer.machine.enabled state.pointer move)
    (stepped : LoopPointer.machine.step state.pointer move = .ok pointer) :
    Agrees ({ state with pointer }.advance move) ∧
      Matched state ({ state with pointer }.advance move)
        (state.visible (.pointer move)) := by
  have moves := Monitor.Moves.of_step enabled stepped
  have run : ∃ actions, LoopPointer.machine.Run (.new false) actions pointer := by
    obtain ⟨actions, before⟩ := agrees.pointerRun
    exact ⟨_, before.step enabled stepped⟩
  have begins (party : ThreadParty) (call : PointerCall) :
      move ≠ .call party call := by
    rintro rfl
    exact inner
  have stays (quiet : ∀ party, move ≠ .unlock party) (party : ThreadParty) :
      (pointer.place party).call = (state.pointer.place party).call :=
    moves.call_eq (begins party) (quiet party)
  cases moves with
  | call outside => cases inner
  | @lock party call queued free =>
      have calls := stays (by simp)
      apply agrees.quiet run rfl calls
      · cases party with
        | starter => rfl
        | started => rcases queued with place | place <;> rw [place] <;> rfl
      · intro asleep
        cases party with
        | starter => cases asleep
        | started => exact agrees.asleep asleep
  | @perform party chosen call work testing ready performed picks =>
      rcases agrees.call_of_testing testing with
        ⟨rfl, rfl⟩ | ⟨rfl, rfl, stage⟩ | ⟨rfl, rfl, stage⟩
      · have set : state.pointer.value = true := ready
        cases Except.ok.inj performed
        have seen : state.visible (.pointer (.test .starter chosen)) =
            some .startLoop := by
          simp [visible, set]
        rw [seen]
        exact agrees.reads testing set rfl run
      · cases Except.ok.inj performed
        have seen : state.visible (.pointer (.test .started chosen)) =
            some .publish := by
          simp [visible, stage]
        rw [seen]
        exact agrees.publishes testing stage picks rfl run
      · cases Except.ok.inj performed
        have seen : state.visible (.pointer (.test .started chosen)) =
            some .clear := by
          simp [visible, stage]
        rw [seen]
        exact agrees.clears testing stage rfl run
  | @wait party call testing unready =>
      rcases agrees.call_of_testing testing with
        ⟨rfl, rfl⟩ | ⟨rfl, rfl, stage⟩ | ⟨rfl, rfl, stage⟩
      · have unset : state.pointer.value = false := unready
        have seen : state.visible (.pointer (.test .starter none)) = none := by
          simp [visible, unset]
        rw [seen]
        exact agrees.quiet run rfl (stays (by simp)) rfl (fun _ => unset)
      · cases unready
      · cases unready
  | @wake party call asleep =>
      apply agrees.quiet run rfl (stays (by simp))
      · cases party with
        | starter => rfl
        | started =>
            rw [asleep]
            rfl
      · intro sleeps
        cases party with
        | starter => cases sleeps
        | started => exact agrees.asleep sleeps
  | @unlock party call result leaving =>
      cases party with
      | started => exact agrees.leaves leaving rfl run
      | starter => exact agrees.returns leaving rfl run

theorem step {next : StartingLoop Functor} {action : StartingAction Functor}
    (agrees : state.Agrees) (enabled : state.Enabled action)
    (stepped : state.step action = .ok next) :
    next.Agrees ∧ Matched state next (state.visible action) := by
  have started := agrees.started
  have value := agrees.value
  cases action with
  | base action =>
      simp only [StartingLoop.step] at stepped
      split at stepped
      · cases Except.ok.inj stepped
        exact ⟨⟨agrees.pointerRun, agrees.starter, started, value,
          agrees.asleep, agrees.unasked⟩, rfl⟩
      · cases stepped
  | ask =>
      obtain ⟨_, _, unasked⟩ := enabled
      have outside := agrees.unasked unasked
      cases Except.ok.inj stepped
      refine ⟨⟨agrees.pointer_call .startLoop outside, .inr rfl, started, value,
        ?_, ?_⟩, rfl⟩
      · intro asleep
        cases asleep
      · intro unasked
        cases unasked
  | construct =>
      obtain ⟨_, stage⟩ := enabled
      rw [stage] at started value
      cases Except.ok.inj stepped
      refine ⟨⟨agrees.pointerRun, agrees.starter, started, value, agrees.asleep,
        agrees.unasked⟩, ?_, ?_⟩
      · show state.viewStage = .construct
        simp [viewStage, stage]
      · rfl
  | returnCallback =>
      obtain ⟨stage, idle⟩ := enabled
      rw [stage] at started value
      cases Except.ok.inj stepped
      refine ⟨⟨agrees.pointerRun, agrees.starter, started, value, agrees.asleep,
        agrees.unasked⟩, ⟨?_, idle⟩, ?_⟩
      · show state.viewStage = .callback
        simp [viewStage, stage]
      · rfl
  | lock =>
      have stage : state.stage = .lock := enabled
      have outside := agrees.started_outside (by rw [stage]; rfl)
      rw [stage] at value
      cases Except.ok.inj stepped
      refine ⟨⟨agrees.pointer_call .publish outside, agrees.starter, rfl, value,
        agrees.asleep, agrees.unasked⟩, ?_⟩
      simp [Matched, visible, view, viewStage, stage, Monitor.State.set,
        Monitor.Place.done]
  | worker action =>
      cases Except.ok.inj stepped
      exact ⟨⟨agrees.pointerRun, agrees.starter, started, value, agrees.asleep,
        agrees.unasked⟩, enabled, rfl⟩
  | returnLoop =>
      obtain ⟨stage, outside⟩ := enabled
      rw [stage] at started value
      cases Except.ok.inj stepped
      refine ⟨⟨agrees.pointerRun, agrees.starter, started, value, agrees.asleep,
        agrees.unasked⟩, ⟨?_, outside⟩, ?_⟩
      · show state.viewStage = .running
        simp [viewStage, stage]
      · rfl
  | lockAgain =>
      have stage : state.stage = .lockAgain := enabled
      have outside := agrees.started_outside (by rw [stage]; rfl)
      rw [stage] at value
      cases Except.ok.inj stepped
      refine ⟨⟨agrees.pointer_call .clear outside, agrees.starter, rfl, value,
        agrees.asleep, agrees.unasked⟩, ?_⟩
      simp [Matched, visible, view, viewStage, stage, Monitor.State.set,
        Monitor.Place.done]
  | pointer move =>
      simp only [StartingLoop.step] at stepped
      split at stepped
      · next pointer moved =>
          cases Except.ok.inj stepped
          exact agrees.pointer_moves enabled.1 enabled.2 moved
      · next fault _ => cases fault
  | destruct =>
      cases Except.ok.inj stepped
      exact ⟨⟨agrees.pointerRun, agrees.starter, started, value, agrees.asleep,
        agrees.unasked⟩, enabled, rfl⟩

end Agrees

theorem machine_refines : (machine Functor).Refines (threadMachine Functor)
    Agrees view visible where
  kept state action next agrees enabled stepped :=
    (agrees.step enabled stepped).1
  hidden state action next agrees enabled stepped unseen := by
    have matched := (agrees.step enabled stepped).2
    rw [unseen] at matched
    exact matched
  matched state action next seen agrees enabled stepped shown := by
    have matched := (agrees.step enabled stepped).2
    rw [shown] at matched
    exact ⟨matched.1, congrArg Except.ok matched.2.symm⟩

section Runs

variable {actions : List (StartingAction Functor)} {state : StartingLoop Functor}

theorem run_agrees (run : (machine Functor).Run new actions state) :
    state.Agrees :=
  (machine_refines.run new_agrees run).1

/-- With the start of the thread, the lock and the condition variable in between,
the owner and the thread do only what `Net.EventLoopThread` allows. -/
theorem run_refines (run : (machine Functor).Run new actions state) :
    (threadMachine Functor).Run .new
      ((machine Functor).observed
        (fun state action => (visible state action).toList) new actions)
      state.view :=
  (machine_refines.run new_agrees run).2

/-- The thread is started, publishes its loop, and wakes the owner, who sleeps in
`startLoop`. -/
theorem startLoop_reads : ∃ state : StartingLoop Unit,
    (threadMachine Unit).Run .new
      [.construct, .returnCallback, .publish, .notify, .startLoop] state.view ∧
    state.owned = true := by
  have found : ((machine Unit).execute new
      [.base .start, .base (.create true), .base (.store 7),
        .base (.latch (.lock .started)),
        .base (.latch (.test .started none)),
        .base (.latch (.unlock .started)), .construct,
        .base (.latch (.lock .starter)),
        .base (.latch (.test .starter none)),
        .base (.latch (.unlock .starter)), .base .check, .ask,
        .pointer (.lock .starter), .pointer (.test .starter none),
        .returnCallback, .lock, .pointer (.lock .started),
        .pointer (.test .started (some .starter)),
        .pointer (.unlock .started), .pointer (.lock .starter),
        .pointer (.test .starter none)]).any
      (fun state => state.owned) = true := by
    decide +kernel
  obtain ⟨state, run, owned⟩ := Machine.run_of_execute found
  exact ⟨state, run_refines run, owned⟩

/-- `threadFunc` has cleared the pointer. -/
def Ended (state : StartingLoop Functor) : Prop :=
  state.stage = .finished ∨
    state.stage = .clearing ∧ (state.pointer.place .started).done = true

/-- `threadFunc` has not yet published the pointer. -/
def Unpublished (state : StartingLoop Functor) : Prop :=
  state.stage = .construct ∨ state.stage = .callback ∨ state.stage = .lock ∨
    state.stage = .publishing ∧ (state.pointer.place .started).done = false

theorem Agrees.unset_iff (agrees : state.Agrees) :
    state.pointer.value = false ↔ state.Unpublished ∨ state.Ended := by
  rw [agrees.value]
  unfold Unpublished Ended
  cases state.stage <;> simp [pointsTo]

theorem Ended.finished (ended : state.Ended)
    (undone : (state.pointer.place .started).done = false) :
    state.stage = .finished := by
  rcases ended with finished | ⟨_, done⟩
  · exact finished
  · rw [undone] at done
    cases done

/-- The owner has not read the pointer and will not: it is cleared. -/
structure Missed (state : StartingLoop Functor) : Prop where
  agrees : state.Agrees
  ended : state.Ended
  unread : (state.pointer.place .starter).done = false

/-- Under the lock nothing but an unlock of `threadFunc` is left to do. -/
theorem Missed.pointer_moves (missed : state.Missed)
    {move : Monitor.Action ThreadParty PointerCall}
    {pointer : Monitor.State ThreadParty Bool PointerCall Bool}
    (moves : LoopPointer.Moves state.pointer move pointer) (inner : Inner move) :
    Ended ({ state with pointer }.advance move) ∧
      (pointer.place .starter).done = false ∧
      ({ state with pointer }.advance move).owned = state.owned := by
  have ended := missed.ended
  have unread := missed.unread
  have unset := missed.agrees.unset_iff.mpr (.inr ended)
  cases moves with
  | call outside => cases inner
  | @lock party call queued free =>
      cases party with
      | starter => exact ⟨ended, rfl, rfl⟩
      | started =>
          have undone : (state.pointer.place .started).done = false := by
            rcases queued with place | place <;> rw [place] <;> rfl
          exact ⟨.inl (ended.finished undone), unread, rfl⟩
  | @perform party chosen call work testing ready performed picks =>
      rcases missed.agrees.call_of_testing testing with
        ⟨rfl, rfl⟩ | ⟨rfl, rfl, stage⟩ | ⟨rfl, rfl, stage⟩
      · have set : state.pointer.value = true := ready
        rw [unset] at set
        cases set
      · rcases ended with finished | ⟨clearing, _⟩
        · rw [stage] at finished
          cases finished
        · rw [stage] at clearing
          cases clearing
      · rcases ended with finished | ⟨_, done⟩
        · rw [stage] at finished
          cases finished
        · rw [testing] at done
          cases done
  | @wait party call testing unready =>
      rcases missed.agrees.call_of_testing testing with
        ⟨rfl, rfl⟩ | ⟨rfl, rfl, stage⟩ | ⟨rfl, rfl, stage⟩
      · exact ⟨ended, rfl, rfl⟩
      · cases unready
      · cases unready
  | @wake party call asleep =>
      cases party with
      | starter => exact ⟨ended, rfl, rfl⟩
      | started =>
          have undone : (state.pointer.place .started).done = false := by
            rw [asleep]
            rfl
          exact ⟨.inl (ended.finished undone), unread, rfl⟩
  | @unlock party call result leaving =>
      cases party with
      | starter =>
          rw [leaving] at unread
          cases unread
      | started =>
          have clearing : state.stage = .clearing := by
            rcases ended with finished | ⟨clearing, _⟩
            · have outside := missed.agrees.started_outside
                (by rw [finished]; rfl)
              rw [leaving] at outside
              cases outside
            · exact clearing
          have next : ({ state with
              pointer := { state.pointer.set .started .outside with
                owner := none } }.advance (.unlock .started)) =
              { state with
                stage := .finished
                pointer := { state.pointer.set .started .outside with
                  owner := none } } := by
            simp [advance, clearing]
          rw [next]
          exact ⟨.inl rfl, unread, rfl⟩

theorem Missed.step {next : StartingLoop Functor}
    {action : StartingAction Functor} (missed : state.Missed)
    (enabled : state.Enabled action) (stepped : state.step action = .ok next) :
    next.Missed ∧ next.owned = state.owned := by
  have agrees := (missed.agrees.step enabled stepped).1
  have late (stage : FuncStage) (here : state.stage = stage)
      (before : stage ≠ .finished) (outside : stage ≠ .clearing) : False := by
    rcases missed.ended with finished | ⟨clearing, _⟩
    · exact before (here.symm.trans finished)
    · exact outside (here.symm.trans clearing)
  cases action with
  | base action =>
      simp only [StartingLoop.step] at stepped
      split at stepped
      · cases Except.ok.inj stepped
        exact ⟨⟨agrees, missed.ended, missed.unread⟩, rfl⟩
      · cases stepped
  | ask =>
      cases Except.ok.inj stepped
      exact ⟨⟨agrees, missed.ended, rfl⟩, rfl⟩
  | construct => exact (late _ enabled.2 (by simp) (by simp)).elim
  | returnCallback => exact (late _ enabled.1 (by simp) (by simp)).elim
  | lock => exact (late _ enabled (by simp) (by simp)).elim
  | worker action =>
      cases Except.ok.inj stepped
      exact ⟨⟨agrees, missed.ended, missed.unread⟩, rfl⟩
  | returnLoop => exact (late _ enabled.1 (by simp) (by simp)).elim
  | lockAgain => exact (late _ enabled (by simp) (by simp)).elim
  | pointer move =>
      simp only [StartingLoop.step] at stepped
      split at stepped
      · next pointer moved =>
          cases Except.ok.inj stepped
          have moves := Monitor.Moves.of_step enabled.2 moved
          obtain ⟨ended, unread, same⟩ := missed.pointer_moves moves enabled.1
          refine ⟨⟨agrees, ended, ?_⟩, same⟩
          rw [advance_pointer]
          exact unread
      · next fault _ => cases fault
  | destruct =>
      have unset := missed.agrees.unset_iff.mpr (.inr missed.ended)
      have set : state.pointer.value = true := enabled
      rw [unset] at set
      cases set

/-- The owner sleeps in `startLoop` only while the pointer is not yet published or
already cleared; while it is set `startLoop` is not stuck; and once it is cleared
a `startLoop` that has not read it never will. -/
theorem run_startLoop (run : (machine Functor).Run new actions state) :
    ((state.pointer.place .starter).asleep = true →
      state.Unpublished ∨ state.Ended) ∧
    (state.pointer.value = true → LoopPointer.Stuck state.pointer →
      state.pointer.place .starter = .outside) ∧
    (state.Ended → (state.pointer.place .starter).done = false →
      ∀ rest later, (machine Functor).Run state rest later →
        (later.pointer.place .starter).done = false ∧
        later.owned = state.owned) := by
  have agrees := run_agrees run
  refine ⟨?_, ?_, ?_⟩
  · intro asleep
    exact agrees.unset_iff.mp (agrees.asleep asleep)
  · intro set stuck
    rcases stuck.still agrees.exclusive .starter with outside | ⟨call, waiting⟩
    · exact outside
    · have unset := agrees.asleep (congrArg Monitor.Place.asleep waiting)
      rw [set] at unset
      cases unset
  · intro ended unread rest later on
    have missed : later.Missed ∧ later.owned = state.owned := by
      apply Machine.Run.state_invariant
        (fun later => later.Missed ∧ later.owned = state.owned)
        ⟨⟨agrees, ended, unread⟩, rfl⟩ ?_ on
      intro middle action next holds enabled stepped
      obtain ⟨missed, same⟩ := holds.1.step enabled stepped
      exact ⟨missed, same.trans holds.2⟩
    exact ⟨missed.1.unread, missed.2⟩

/-- The initialisation callback queues a functor that quits the loop, and the loop
ends before the owner gets the lock: it sleeps for ever. -/
theorem startLoop_sleeps : ∃ state : StartingLoop Unit,
    state.Ended ∧ (state.pointer.place .starter).asleep = true ∧
    (state.Unpublished ∨ state.Ended) ∧
    (state.pointer.value = true → LoopPointer.Stuck state.pointer →
      state.pointer.place .starter = .outside) ∧
    ∀ rest later, (machine Unit).Run state rest later →
      (later.pointer.place .starter).done = false ∧
      later.owned = state.owned := by
  have found : ((machine Unit).execute new
      [.base .start, .base (.create true), .base (.store 7),
        .base (.latch (.lock .started)),
        .base (.latch (.test .started none)),
        .base (.latch (.unlock .started)),
        .base (.latch (.lock .starter)),
        .base (.latch (.test .starter none)),
        .base (.latch (.unlock .starter)), .base .check, .ask,
        .pointer (.lock .starter), .pointer (.test .starter none),
        .construct, .worker (.queueInLoop .loopThread ()),
        .worker .testWakeup, .returnCallback, .lock,
        .pointer (.lock .started), .pointer (.test .started (some .starter)),
        .pointer (.unlock .started), .worker .advance, .worker .advance,
        .worker .advance, .worker .advance, .worker (.poll false),
        .worker .advance, .worker .advance, .worker .advance,
        .worker .advance, .worker (.quit .loopThread), .worker .advance,
        .worker .advance, .worker .advance, .worker .advance,
        .worker .advance, .returnLoop, .lockAgain,
        .pointer (.lock .started), .pointer (.test .started none),
        .pointer (.unlock .started), .pointer (.lock .starter),
        .pointer (.test .starter none)]).any
      (fun state => state.stage = .finished ∧
        (state.pointer.place .starter).asleep = true ∧
        (state.pointer.place .starter).done = false) = true := by
    decide +kernel
  obtain ⟨state, run, reached⟩ := Machine.run_of_execute found
  obtain ⟨finished, asleep, unread⟩ := of_decide_eq_true reached
  obtain ⟨sleeps, set, never⟩ := run_startLoop run
  exact ⟨state, .inl finished, asleep, sleeps asleep, set,
    never (.inl finished) unread⟩

end Runs

end StartingLoop

end Muduo
