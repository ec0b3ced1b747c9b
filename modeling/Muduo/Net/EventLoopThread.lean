import Muduo.Net.EventLoopRuns

/-!
# The start of an event loop thread

`EventLoopThread::threadFunc` with its owner.  The pointer to the loop is
published before `loop` sets its own flags, and the thread initialisation callback
runs before that.
-/

namespace Muduo

open Library

universe u

/-- Where `threadFunc` stands; each stage is named for what comes next. -/
inductive ThreadStage where
  | construct
  | callback
  | publish
  | notify
  | running
  | clear
  | finished
  deriving DecidableEq, Repr

namespace ThreadStage

/-- `loop` has not been called. -/
@[simp] def beforeLoop : ThreadStage → Bool
  | construct | callback | publish | notify => true
  | running | clear | finished => false

/-- The `EventLoop` exists. -/
@[simp] def alive : ThreadStage → Bool
  | construct | finished => false
  | callback | publish | notify | running | clear => true

end ThreadStage

/-- `published` says that `loop_` is not `NULL`, `owned` that the owner has the
pointer. -/
structure EventLoopThread (Functor : Type u) where
  stage : ThreadStage
  worker : LoopThread Functor
  published : Bool
  owned : Bool

/-- `worker` is a step of the event loop or a call of it, by the callback, by
functors and handlers, or by the owner and whom it tells of the loop. -/
inductive ThreadAction (Functor : Type u) where
  | construct
  | returnCallback
  | publish
  | notify
  | worker (action : LoopAction Functor)
  | returnLoop
  | clear
  | startLoop
  | destruct

variable {Functor : Type u}

namespace EventLoopThread

def new : EventLoopThread Functor :=
  { stage := .construct, worker := .new, published := false, owned := false }

/-- `destruct` is the test of `loop_` in the destructor, which takes no lock. -/
def step (thread : EventLoopThread Functor) :
    ThreadAction Functor → EventLoopThread Functor
  | .construct => { thread with stage := .callback }
  | .returnCallback => { thread with stage := .publish }
  | .publish => { thread with stage := .notify, published := true }
  | .notify =>
      { thread with stage := .running, worker := thread.worker.step .enter }
  | .worker action => { thread with worker := thread.worker.step action }
  | .returnLoop => { thread with stage := .clear }
  | .clear => { thread with stage := .finished, published := false }
  | .startLoop | .destruct => { thread with owned := true }

/-- The thread runs the callback, or handlers and functors. -/
def UserCode (thread : EventLoopThread Functor) : Prop :=
  thread.stage = .callback ∨
    (thread.stage = .running ∧ thread.worker.point ≠ .outside)

/-- Who may call, besides what the event loop asks. -/
def Calls (thread : EventLoopThread Functor) : LoopCaller → Prop
  | .loopThread => thread.UserCode
  | .otherThread => thread.owned = true ∧ thread.stage.alive = true

def Allows (thread : EventLoopThread Functor) : LoopAction Functor → Prop
  | .enter => False
  | .advance | .poll _ | .handleRead => thread.stage = .running
  | .queueInLoop caller _ | .runInLoop caller _ | .quit caller =>
      thread.Calls caller
  | .testWakeup => thread.UserCode
  | .wakeupWrite | .quitWakeup => thread.stage.alive = true

/-- The lock is held from `publish` to `notify`, so that `startLoop` cannot
return in between. -/
def Enabled (thread : EventLoopThread Functor) :
    ThreadAction Functor → Prop
  | .construct => thread.stage = .construct
  | .returnCallback => thread.stage = .callback ∧
      thread.worker.testing = false
  | .publish => thread.stage = .publish
  | .notify => thread.stage = .notify
  | .worker action => thread.Allows action ∧ thread.worker.Enabled action
  | .returnLoop => thread.stage = .running ∧ thread.worker.point = .outside
  | .clear => thread.stage = .clear
  | .startLoop => thread.published = true ∧ thread.stage ≠ .notify
  | .destruct => thread.published = true

instance (thread : EventLoopThread Functor) : Decidable thread.UserCode :=
  inferInstanceAs (Decidable (_ ∨ (_ ∧ _)))

instance (thread : EventLoopThread Functor) (caller : LoopCaller) :
    Decidable (thread.Calls caller) :=
  match caller with
  | .loopThread => inferInstanceAs (Decidable thread.UserCode)
  | .otherThread => inferInstanceAs (Decidable (_ ∧ _))

instance (thread : EventLoopThread Functor) (action : LoopAction Functor) :
    Decidable (thread.Allows action) :=
  match action with
  | .enter => isFalse id
  | .advance | .poll _ | .handleRead => inferInstanceAs (Decidable (_ = _))
  | .queueInLoop caller _ | .runInLoop caller _ | .quit caller =>
      inferInstanceAs (Decidable (thread.Calls caller))
  | .testWakeup => inferInstanceAs (Decidable thread.UserCode)
  | .wakeupWrite | .quitWakeup => inferInstanceAs (Decidable (_ = _))

instance (thread : EventLoopThread Functor) (action : ThreadAction Functor) :
    Decidable (thread.Enabled action) :=
  match action with
  | .construct | .publish | .notify | .clear | .destruct =>
      inferInstanceAs (Decidable (_ = _))
  | .returnCallback | .returnLoop | .startLoop =>
      inferInstanceAs (Decidable (_ ∧ _))
  | .worker action =>
      inferInstanceAs
        (Decidable (thread.Allows action ∧ thread.worker.Enabled action))

end EventLoopThread

/-- An event loop thread and its owner as a machine; no step fails. -/
def threadMachine (Functor : Type u) :
    Machine (EventLoopThread Functor) (ThreadAction Functor) Empty where
  enabled := EventLoopThread.Enabled
  step thread action := .ok (thread.step action)

namespace EventLoopThread

/-- A finished call of `quit` is not forgotten at a poll, and the first poll is
not entered with functors that will not end it. -/
structure Honoured (thread : EventLoopThread Functor) : Prop where
  quit : 0 < thread.worker.quits → thread.worker.point = .poll →
    thread.worker.loop.quit = true
  first : thread.worker.point = .poll → thread.worker.polls = 0 →
    thread.worker.loop.pendingFunctors ≠ [] →
    0 < thread.worker.awaiting ∨ 0 < thread.worker.loop.wakeupFd

/-- `loop` has not yet executed `quit_ = false`. -/
def early (thread : EventLoopThread Functor) : Bool :=
  thread.stage.beforeLoop || thread.worker.point.starting

/-- No call of `quit` before `loop` has cleared `quit_`, and none of `queueInLoop`
by the initialisation callback. -/
def Timely (thread : EventLoopThread Functor) : ThreadAction Functor → Prop
  | .worker (.quit _) => thread.early = false
  | .worker (.queueInLoop .loopThread _) => thread.stage ≠ .callback
  | _ => True

instance (thread : EventLoopThread Functor) (action : ThreadAction Functor) :
    Decidable (thread.Timely action) :=
  match action with
  | .worker (.quit _) => inferInstanceAs (Decidable (_ = _))
  | .worker (.queueInLoop .loopThread _) => inferInstanceAs (Decidable (_ ≠ _))
  | .worker (.queueInLoop .otherThread _) | .worker .enter | .worker .advance
  | .worker (.poll _) | .worker .handleRead | .worker .testWakeup
  | .worker .wakeupWrite | .worker (.runInLoop _ _) | .worker .quitWakeup
  | .construct | .returnCallback | .publish | .notify | .returnLoop | .clear
  | .startLoop | .destruct => isTrue trivial

/-- What timely steps keep. -/
structure Prompt (thread : EventLoopThread Functor) : Prop where
  unpolled : thread.stage.beforeLoop = true → thread.worker.polls = 0
  polled : thread.worker.point.polled = true → 0 < thread.worker.polls
  quit : 0 < thread.worker.quits + thread.worker.quitting →
    thread.early = false ∧ thread.worker.loop.quit = true
  first : thread.worker.polls = 0 → thread.worker.loop.pendingFunctors ≠ [] →
    0 < thread.worker.awaiting ∨ 0 < thread.worker.loop.wakeupFd

theorem new_prompt : (new : EventLoopThread Functor).Prompt where
  unpolled _ := rfl
  polled polled := by cases polled
  quit quits := by cases quits
  first _ waiting := (waiting rfl).elim

variable {thread : EventLoopThread Functor}

theorem Prompt.moved {worker : LoopThread Functor} (prompt : thread.Prompt)
    (running : thread.stage.beforeLoop = false)
    (polls : worker.polls = thread.worker.polls)
    (polled : worker.point.polled = true →
      thread.worker.point.polled = true)
    (quits : worker.quits + worker.quitting =
      thread.worker.quits + thread.worker.quitting)
    (early : thread.worker.point.starting = false →
      worker.point.starting = false ∧
        worker.loop.quit = thread.worker.loop.quit)
    (pending : worker.loop.pendingFunctors ≠ [] →
      thread.worker.loop.pendingFunctors ≠ [])
    (awaiting : worker.awaiting = thread.worker.awaiting)
    (counter : worker.loop.wakeupFd = thread.worker.loop.wakeupFd) :
    Prompt { thread with worker } where
  unpolled before := by
    have before : thread.stage.beforeLoop = true := before
    rw [running] at before
    cases before
  polled here := by
    show 0 < worker.polls
    rw [polls]
    exact prompt.polled (polled here)
  quit quitted := by
    have quitted : 0 < worker.quits + worker.quitting := quitted
    rw [quits] at quitted
    obtain ⟨late, quit⟩ := prompt.quit quitted
    have begun := (Bool.or_eq_false_iff.mp late).2
    obtain ⟨stillLate, same⟩ := early begun
    exact ⟨Bool.or_eq_false_iff.mpr ⟨running, stillLate⟩, same.trans quit⟩
  first first waiting := by
    have first : worker.polls = 0 := first
    rw [polls] at first
    have covered := prompt.first first (pending waiting)
    rwa [← awaiting, ← counter] at covered

theorem Prompt.worker {action : LoopAction Functor}
    {worker : LoopThread Functor} (prompt : thread.Prompt)
    (allowed : thread.Allows action) (timely : thread.Timely (.worker action))
    (step : LoopStep thread.worker action worker) :
    Prompt { thread with worker } := by
  have polls := prompt.polled
  cases step with
  | enter => exact allowed.elim
  | reentered point _ | start point _ | setLooping point | clearQuit point
  | leave point _ | stay point _ | clearLooping point =>
      have running : thread.stage = .running := allowed
      exact prompt.moved (by simp [running]) rfl (by simp) rfl (by simp [point])
        id rfl rfl
  | setPending point | finish point _ | execute point _ | executed point _
  | clearPending point | handled point _ =>
      have running : thread.stage = .running := allowed
      exact prompt.moved (by simp [running]) rfl (by simp [point]) rfl
        (by simp) id rfl rfl
  | poll readable point _ =>
      have running : thread.stage = .running := allowed
      constructor
      · simp [running]
      · intro _
        exact Nat.succ_pos _
      · intro quitted
        have same := prompt.quit quitted
        simpa [early, running, point] using same
      · intro none
        cases none
  | swap point =>
      have running : thread.stage = .running := allowed
      exact prompt.moved (by simp [running]) rfl (by simp [point]) rfl
        (by simp) (fun waiting => (waiting rfl).elim) rfl rfl
  | handleRead point =>
      have some : 0 < thread.worker.polls := polls (by simp [point])
      exact ⟨prompt.unpolled, polls, prompt.quit,
        fun none => (Nat.ne_of_gt some none).elim⟩
  | queueOwn functor inUser =>
      -- Handlers and functors run behind the first poll.
      have some : 0 < thread.worker.polls := by
        rcases allowed with callback | ⟨running, inLoop⟩
        · exact (timely callback).elim
        · apply polls
          cases point : thread.worker.point <;> simp_all
      exact ⟨prompt.unpolled, polls, prompt.quit,
        fun none => (Nat.ne_of_gt some none).elim⟩
  | queueOther functor =>
      exact ⟨prompt.unpolled, polls, prompt.quit,
        fun _ _ => .inl (Nat.succ_pos _)⟩
  | testPending _ _ =>
      exact ⟨prompt.unpolled, polls, prompt.quit,
        fun _ _ => .inr (Nat.succ_pos _)⟩
  | testIdle _ _ => exact ⟨prompt.unpolled, polls, prompt.quit, prompt.first⟩
  | wakeupWrite =>
      exact ⟨prompt.unpolled, polls, prompt.quit,
        fun _ _ => .inr (Nat.succ_pos _)⟩
  | runOwn functor => exact prompt
  | quit caller _ =>
      have late : thread.early = false := timely
      cases caller with
      | loopThread =>
          exact ⟨prompt.unpolled, polls, fun _ => ⟨late, rfl⟩, prompt.first⟩
      | otherThread =>
          exact ⟨prompt.unpolled, polls, fun _ => ⟨late, rfl⟩, prompt.first⟩
  | quitWakeup quitting =>
      have before := prompt.quit (Nat.lt_of_lt_of_le quitting (Nat.le_add_left _ _))
      exact ⟨prompt.unpolled, polls, fun _ => before,
        fun _ _ => .inr (Nat.succ_pos _)⟩

theorem Prompt.step {action : ThreadAction Functor} (prompt : thread.Prompt)
    (enabled : thread.Enabled action) (timely : thread.Timely action) :
    (thread.step action).Prompt := by
  have noQuits : thread.stage.beforeLoop = true →
      ¬ 0 < thread.worker.quits + thread.worker.quitting := by
    intro before quits
    have late := (Bool.or_eq_false_iff.mp (prompt.quit quits).1).1
    rw [before] at late
    cases late
  cases action with
  | construct =>
      have before := congrArg ThreadStage.beforeLoop enabled
      exact ⟨fun _ => prompt.unpolled before, prompt.polled,
        fun quits => (noQuits before quits).elim, prompt.first⟩
  | returnCallback =>
      have before := congrArg ThreadStage.beforeLoop enabled.1
      exact ⟨fun _ => prompt.unpolled before, prompt.polled,
        fun quits => (noQuits before quits).elim, prompt.first⟩
  | publish =>
      have before := congrArg ThreadStage.beforeLoop enabled
      exact ⟨fun _ => prompt.unpolled before, prompt.polled,
        fun quits => (noQuits before quits).elim, prompt.first⟩
  | notify =>
      have before := congrArg ThreadStage.beforeLoop enabled
      constructor
      · intro _
        rfl
      · intro polled
        cases polled
      · intro quits
        exact (noQuits before quits).elim
      · intro _ waiting
        exact prompt.first (prompt.unpolled before) waiting
  | worker action =>
      exact prompt.worker enabled.1 timely (loopStep_of_step enabled.2 rfl)
  | returnLoop =>
      have left : thread.worker.point = .outside := enabled.2
      constructor
      · intro before
        cases before
      · exact prompt.polled
      · intro quits
        refine ⟨?_, (prompt.quit quits).2⟩
        exact Bool.or_eq_false_iff.mpr
          ⟨rfl, congrArg LoopPoint.starting left⟩
      · exact prompt.first
  | clear =>
      constructor
      · intro before
        cases before
      · exact prompt.polled
      · intro quits
        obtain ⟨late, quit⟩ := prompt.quit quits
        exact ⟨Bool.or_eq_false_iff.mpr
          ⟨rfl, (Bool.or_eq_false_iff.mp late).2⟩, quit⟩
      · exact prompt.first
  | startLoop =>
      exact ⟨prompt.unpolled, prompt.polled, prompt.quit, prompt.first⟩
  | destruct =>
      exact ⟨prompt.unpolled, prompt.polled, prompt.quit, prompt.first⟩

theorem Prompt.honoured (prompt : thread.Prompt) : thread.Honoured where
  quit quits _ := (prompt.quit (Nat.lt_of_lt_of_le quits (Nat.le_add_right _ _))).2
  first _ := prompt.first

end EventLoopThread

section Runs

variable {actions : List (ThreadAction Functor)}
variable {thread : EventLoopThread Functor}

/-- Whenever no `quit` comes before `loop` has cleared `quit_` and the
initialisation callback queues nothing, what is asked of the loop before it runs
is honoured in every state. -/
theorem start_honoured
    (run : ((threadMachine Functor).restrict EventLoopThread.Timely).Run
      .new actions thread) : thread.Honoured := by
  have prompt : thread.Prompt :=
    Machine.Run.state_invariant EventLoopThread.Prompt
      EventLoopThread.new_prompt
      (fun _ _ _ prompt enabled stepped => by
        cases stepped
        exact prompt.step enabled.1 enabled.2) run
  exact prompt.honoured

instance (thread : EventLoopThread Functor) (action : ThreadAction Functor) :
    Decidable ((threadMachine Functor).enabled thread action) :=
  inferInstanceAs (Decidable (thread.Enabled action))

instance (thread : EventLoopThread Functor) (action : ThreadAction Functor) :
    Decidable (((threadMachine Functor).restrict
      EventLoopThread.Timely).enabled thread action) :=
  inferInstanceAs (Decidable (thread.Enabled action ∧ thread.Timely action))

/-- The owner queues a functor before the thread enters `loop`, and quits when
the loop has begun. -/
theorem start_honoured_queued :
    ∃ (actions : List (ThreadAction Unit)) (thread : EventLoopThread Unit),
      ((threadMachine Unit).restrict EventLoopThread.Timely).Run .new actions
        thread ∧
      thread.worker.point = .poll ∧ thread.worker.quits = 1 ∧
      thread.worker.loop.pendingFunctors = [()] ∧ thread.Honoured := by
  have found : (((threadMachine Unit).restrict EventLoopThread.Timely).execute
      .new [.construct, .returnCallback, .publish, .notify, .startLoop,
        .worker (.queueInLoop .otherThread ()), .worker .advance,
        .worker .advance, .worker .advance, .worker .advance,
        .worker (.quit .otherThread), .worker .quitWakeup]).any
      (fun thread => thread.worker.point = .poll ∧ thread.worker.quits = 1 ∧
        thread.worker.loop.pendingFunctors = [()]) = true := by
    decide +kernel
  obtain ⟨thread, runs, accepted⟩ := Machine.run_of_execute found
  obtain ⟨about, quits, pending⟩ := of_decide_eq_true accepted
  exact ⟨_, thread, runs, about, quits, pending, start_honoured runs⟩

/-- A `quit` between the publication of the loop and `quit_ = false` is lost, and
a functor queued by the initialisation callback does not end the first poll. -/
theorem start_not_honoured :
    (∃ (actions : List (ThreadAction Unit)) (thread : EventLoopThread Unit),
      (threadMachine Unit).Run .new actions thread ∧
      thread.worker.point = .poll ∧ thread.worker.quits = 1 ∧
      thread.worker.loop.quit = false) ∧
    ∃ (actions : List (ThreadAction Unit)) (thread : EventLoopThread Unit),
      (threadMachine Unit).Run .new actions thread ∧
      thread.worker.point = .poll ∧ thread.worker.polls = 0 ∧
      thread.worker.loop.pendingFunctors = [()] ∧
      thread.worker.awaiting = 0 ∧ thread.worker.loop.wakeupFd = 0 := by
  constructor
  · have found : ((threadMachine Unit).execute .new
        [.construct, .returnCallback, .publish, .notify, .startLoop,
          .worker (.quit .otherThread), .worker .quitWakeup, .worker .advance,
          .worker .advance, .worker .advance, .worker .advance]).any
        (fun thread => thread.worker.point = .poll ∧
          thread.worker.quits = 1 ∧ thread.worker.loop.quit = false) =
        true := by
      decide +kernel
    obtain ⟨thread, runs, accepted⟩ := Machine.run_of_execute found
    exact ⟨_, thread, runs, of_decide_eq_true accepted⟩
  · have found : ((threadMachine Unit).execute .new
        [.construct, .worker (.queueInLoop .loopThread ()),
          .worker .testWakeup, .returnCallback, .publish, .notify,
          .worker .advance, .worker .advance, .worker .advance,
          .worker .advance]).any
        (fun thread => thread.worker.point = .poll ∧
          thread.worker.polls = 0 ∧
          thread.worker.loop.pendingFunctors = [()] ∧
          thread.worker.awaiting = 0 ∧
          thread.worker.loop.wakeupFd = 0) = true := by
      decide +kernel
    obtain ⟨thread, runs, accepted⟩ := Machine.run_of_execute found
    exact ⟨_, thread, runs, of_decide_eq_true accepted⟩

end Runs

end Muduo
