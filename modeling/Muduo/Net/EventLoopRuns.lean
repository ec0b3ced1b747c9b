import Muduo.Net.EventLoop

/-!
# Runs of an event loop

`LoopStep` says once what each step can do.  From it come the account of the
queued functors, which functors a call of `doPendingFunctors` can execute, and
that a poll after the first one is never entered without a wake-up for the
functors that were queued meanwhile.
-/

namespace Muduo

open Library

universe u

variable {Functor : Type u}

/-- The steps of an event loop, with what enables each of them. -/
inductive LoopStep (thread : LoopThread Functor) :
    LoopAction Functor → LoopThread Functor → Prop where
  | enter :
      thread.point = .outside → thread.testing = false →
      LoopStep thread .enter { thread with polls := 0, point := .testLooping }
  | reentered :
      thread.point = .testLooping → thread.loop.looping = true →
      LoopStep thread .advance (thread.goto .outside)
  | start :
      thread.point = .testLooping → thread.loop.looping = false →
      LoopStep thread .advance (thread.goto .setLooping)
  | setLooping :
      thread.point = .setLooping →
      LoopStep thread .advance
        { thread with loop := { thread.loop with looping := true }
                      point := .clearQuit }
  | clearQuit :
      thread.point = .clearQuit →
      LoopStep thread .advance
        { thread with loop := { thread.loop with quit := false }
                      point := .testQuit }
  | leave :
      thread.point = .testQuit → thread.loop.quit = true →
      LoopStep thread .advance (thread.goto .clearLooping)
  | stay :
      thread.point = .testQuit → thread.loop.quit = false →
      LoopStep thread .advance (thread.goto .poll)
  | poll (readable : Bool) :
      thread.point = .poll → (readable = true → 0 < thread.loop.wakeupFd) →
      LoopStep thread (.poll readable)
        { thread with
          loop :=
            { thread.loop with pollCounter := thread.loop.pollCounter + 1 }
          polls := thread.polls + 1
          readable
          point := .events }
  | handled :
      thread.point = .events → thread.testing = false →
      LoopStep thread .advance
        { thread with calls := thread.calls + 1, point := .setPending }
  | setPending :
      thread.point = .setPending →
      LoopStep thread .advance
        { thread with loop := { thread.loop with functorPending := true }
                      point := .swap }
  | swap :
      thread.point = .swap →
      LoopStep thread .advance
        { thread with
          functors := thread.loop.pendingFunctors
          loop := { thread.loop with pendingFunctors := [] }
          point := .functors }
  | finish :
      thread.point = .functors → thread.functors = [] →
      LoopStep thread .advance (thread.goto .clearPending)
  | execute {functor : Functor} {functors : List Functor} :
      thread.point = .functors → thread.functors = functor :: functors →
      LoopStep thread .advance
        { thread with
          functors
          executed := thread.executed ++ [functor]
          point := .functor }
  | executed :
      thread.point = .functor → thread.testing = false →
      LoopStep thread .advance (thread.goto .functors)
  | clearPending :
      thread.point = .clearPending →
      LoopStep thread .advance
        { thread with loop := { thread.loop with functorPending := false }
                      point := .testQuit }
  | clearLooping :
      thread.point = .clearLooping →
      LoopStep thread .advance
        { thread with loop := { thread.loop with looping := false }
                      point := .outside }
  | handleRead :
      thread.point = .events →
      LoopStep thread .handleRead
        { thread with loop := thread.loop.wakeupRead, readable := false }
  | queueOwn (functor : Functor) :
      thread.point.inUser = true →
      LoopStep thread (.queueInLoop .loopThread functor)
        (thread.queueInLoop .loopThread functor)
  | queueOther {action : LoopAction Functor} (functor : Functor) :
      LoopStep thread action (thread.queueInLoop .otherThread functor)
  | testPending :
      thread.testing = true → thread.loop.functorPending = true →
      LoopStep thread .testWakeup
        { thread with loop := thread.loop.wakeupWrite, testing := false }
  | testIdle :
      thread.testing = true → thread.loop.functorPending = false →
      LoopStep thread .testWakeup { thread with testing := false }
  | wakeupWrite :
      LoopStep thread .wakeupWrite
        { thread with loop := thread.loop.wakeupWrite
                      awaiting := thread.awaiting - 1 }
  | runOwn (functor : Functor) :
      LoopStep thread (.runInLoop .loopThread functor) thread
  | quit (caller : LoopCaller) :
      thread.MayCall caller → LoopStep thread (.quit caller) (thread.quit caller)
  | quitWakeup :
      0 < thread.quitting →
      LoopStep thread .quitWakeup
        { thread with
          loop := thread.loop.wakeupWrite
          quitting := thread.quitting - 1
          quits := thread.quits + 1 }

theorem loopStep_of_advance {thread : LoopThread Functor}
    (enabled : thread.Enabled .advance) :
    LoopStep thread .advance thread.advance := by
  obtain ⟨notOutside, notPoll, noTest, _⟩ := enabled
  cases point : thread.point with
  | outside => exact (notOutside point).elim
  | testLooping =>
      cases looping : thread.loop.looping with
      | true =>
          simpa [LoopThread.advance, point, looping] using
            LoopStep.reentered point looping
      | false =>
          simpa [LoopThread.advance, point, looping] using
            LoopStep.start point looping
  | setLooping =>
      simpa [LoopThread.advance, point] using LoopStep.setLooping point
  | clearQuit =>
      simpa [LoopThread.advance, point] using LoopStep.clearQuit point
  | testQuit =>
      cases quit : thread.loop.quit with
      | true =>
          simpa [LoopThread.advance, point, quit] using LoopStep.leave point quit
      | false =>
          simpa [LoopThread.advance, point, quit] using LoopStep.stay point quit
  | poll => exact (notPoll point).elim
  | events =>
      simpa [LoopThread.advance, point] using LoopStep.handled point noTest
  | setPending =>
      simpa [LoopThread.advance, point] using LoopStep.setPending point
  | swap => simpa [LoopThread.advance, point] using LoopStep.swap point
  | functors =>
      cases functors : thread.functors with
      | nil =>
          simpa [LoopThread.advance, point, functors] using
            LoopStep.finish point functors
      | cons functor rest =>
          simpa [LoopThread.advance, point, functors] using
            LoopStep.execute point functors
  | functor =>
      simpa [LoopThread.advance, point] using LoopStep.executed point noTest
  | clearPending =>
      simpa [LoopThread.advance, point] using LoopStep.clearPending point
  | clearLooping =>
      simpa [LoopThread.advance, point] using LoopStep.clearLooping point

theorem loopStep_of_step {thread next : LoopThread Functor}
    {action : LoopAction Functor}
    (enabled : (loopMachine Functor).enabled thread action)
    (stepped : (loopMachine Functor).step thread action = .ok next) :
    LoopStep thread action next := by
  obtain rfl : thread.step action = next := Except.ok.inj stepped
  have enabled : thread.Enabled action := enabled
  cases action with
  | enter => exact .enter enabled.1 enabled.2
  | advance => exact loopStep_of_advance enabled
  | poll readable => exact .poll readable enabled.1 enabled.2
  | handleRead => exact .handleRead enabled.1
  | queueInLoop caller functor =>
      cases caller with
      | loopThread => exact .queueOwn functor enabled.1
      | otherThread => exact .queueOther functor
  | testWakeup =>
      cases pending : thread.loop.functorPending with
      | true =>
          simpa [LoopThread.step, LoopThread.testWakeup, pending] using
            LoopStep.testPending enabled pending
      | false =>
          simpa [LoopThread.step, LoopThread.testWakeup, pending] using
            LoopStep.testIdle enabled pending
  | wakeupWrite => exact .wakeupWrite
  | runInLoop caller functor =>
      cases caller with
      | loopThread => exact .runOwn functor
      | otherThread => exact .queueOther functor
  | quit caller => exact .quit caller enabled
  | quitWakeup => exact .quitWakeup enabled

namespace LoopThread

/-- The account of the functors: everything pushed was executed or waits, in
order, and a batch exists only while it is executed. -/
structure Accounted (thread : LoopThread Functor) : Prop where
  accounts : thread.queue.Accounts thread.pushed thread.executed
  handled : thread.point ≠ .functors → thread.point ≠ .functor →
    thread.functors = []

theorem new_accounted : (new : LoopThread Functor).Accounted where
  accounts := rfl
  handled _ _ := rfl

theorem Accounted.step {thread next : LoopThread Functor}
    {action : LoopAction Functor} (accounted : thread.Accounted)
    (step : LoopStep thread action next) : next.Accounted := by
  obtain ⟨accounts, handled⟩ := accounted
  cases step with
  | swap point =>
      exact ⟨accounts.swap (handled (by simp [point]) (by simp [point])),
        fun notFunctors => (notFunctors rfl).elim⟩
  | execute point front =>
      exact ⟨accounts.take front, fun _ notFunctor => (notFunctor rfl).elim⟩
  | finish point empty => exact ⟨accounts, fun _ _ => empty⟩
  | executed => exact ⟨accounts, fun notFunctors => (notFunctors rfl).elim⟩
  | queueOwn functor => exact ⟨accounts.push functor, handled⟩
  | queueOther functor => exact ⟨accounts.push functor, handled⟩
  | enter point | reentered point | start point | setLooping point
  | clearQuit point | leave point | stay point | poll _ point | handled point
  | setPending point | clearPending point | clearLooping point =>
      exact ⟨accounts, fun _ _ => handled (by simp [point]) (by simp [point])⟩
  | handleRead | testPending | testIdle | wakeupWrite | runOwn | quitWakeup =>
      exact ⟨accounts, handled⟩
  | quit caller => cases caller <;> exact ⟨accounts, handled⟩

/-- What a call of `doPendingFunctors` that has taken over its functors, in
`thread`, can still execute. -/
def SameBatch (thread state : LoopThread Functor) : Prop :=
  thread.calls ≤ state.calls ∧
    (state.calls = thread.calls →
      state.point ≠ .setPending ∧ state.point ≠ .swap ∧
      state.executed ++ state.functors = thread.executed ++ thread.functors)

theorem sameBatch_refl {thread : LoopThread Functor}
    (afterSwap : thread.point.afterSwap = true) :
    thread.SameBatch thread := by
  refine ⟨Nat.le_refl _, fun _ => ⟨?_, ?_, rfl⟩⟩
  · intro point
    simp [point, LoopPoint.afterSwap] at afterSwap
  · intro point
    simp [point, LoopPoint.afterSwap] at afterSwap

theorem SameBatch.step {thread state next : LoopThread Functor}
    {action : LoopAction Functor} (same : thread.SameBatch state)
    (step : LoopStep state action next) : thread.SameBatch next := by
  obtain ⟨later, batch⟩ := same
  cases step with
  | handled =>
      have less : thread.calls < state.calls + 1 := Nat.lt_succ_of_le later
      exact ⟨Nat.le_of_lt less, fun equal => (Nat.ne_of_gt less equal).elim⟩
  | setPending point =>
      exact ⟨later, fun equal => ((batch equal).1 point).elim⟩
  | swap point => exact ⟨later, fun equal => ((batch equal).2.1 point).elim⟩
  | execute point front =>
      refine ⟨later, fun equal => ⟨by simp, by simp, ?_⟩⟩
      rw [← (batch equal).2.2, front]
      simp
  | enter | reentered | start | setLooping | clearQuit | leave | stay | poll
  | finish | executed | clearPending | clearLooping =>
      exact ⟨later, fun equal => ⟨nofun, nofun, (batch equal).2.2⟩⟩
  | queueOwn | queueOther | handleRead | testPending | testIdle | wakeupWrite
  | runOwn | quitWakeup => exact ⟨later, batch⟩
  | quit caller => cases caller <;> exact ⟨later, batch⟩

/-- A call of `doPendingFunctors` has swapped the vectors and no poll has begun
since, in this call of `loop`. -/
def SwappedLast (thread : LoopThread Functor) : Prop :=
  thread.point.afterSwap = true ∨
    ((thread.point = .testQuit ∨ thread.point = .poll) ∧ 0 < thread.polls)

/-- The functors queued since the last swap will end the next poll. -/
structure Woken (thread : LoopThread Functor) : Prop where
  pending_eq : thread.loop.functorPending = thread.point.pendingSet
  testing_inUser : thread.testing = true → thread.point.inUser = true
  polls_eq : thread.point = .testLooping ∨ thread.point = .setLooping ∨
    thread.point = .clearQuit → thread.polls = 0
  covered : thread.SwappedLast → thread.loop.pendingFunctors ≠ [] →
    0 < thread.loop.wakeupFd ∨ 0 < thread.awaiting ∨ thread.testing = true

theorem new_woken : (new : LoopThread Functor).Woken where
  pending_eq := rfl
  testing_inUser testing := by cases testing
  polls_eq _ := rfl
  covered _ waiting := (waiting rfl).elim

theorem Woken.noTest {thread : LoopThread Functor} (woken : thread.Woken)
    (busy : thread.point.inUser = false) : thread.testing = false := by
  cases testing : thread.testing with
  | false => rfl
  | true =>
      have inUser := woken.testing_inUser testing
      rw [busy] at inUser
      cases inUser

/-- Before the first swap of a call of `loop`, and from the end of a poll to the
swap, nothing has to be covered. -/
theorem Woken.uncovered {thread : LoopThread Functor}
    (pending : thread.loop.functorPending = thread.point.pendingSet)
    (testing : thread.testing = true → thread.point.inUser = true)
    (polls : thread.point = .testLooping ∨ thread.point = .setLooping ∨
      thread.point = .clearQuit → thread.polls = 0)
    (early : ¬ thread.SwappedLast) : thread.Woken where
  pending_eq := pending
  testing_inUser := testing
  polls_eq := polls
  covered swapped := (early swapped).elim

/-- A step of the loop thread from one covered point to the next. -/
theorem Woken.goesOn {thread next : LoopThread Functor}
    (woken : thread.Woken) (swapped : next.SwappedLast → thread.SwappedLast)
    (pending : next.loop.functorPending = next.point.pendingSet)
    (polls : next.point = .testLooping ∨ next.point = .setLooping ∨
      next.point = .clearQuit → next.polls = 0)
    (idle : thread.testing = false) (idleNext : next.testing = false)
    (queued : next.loop.pendingFunctors = thread.loop.pendingFunctors)
    (counter : next.loop.wakeupFd = thread.loop.wakeupFd)
    (awaiting : next.awaiting = thread.awaiting) : next.Woken where
  pending_eq := pending
  testing_inUser testing := by
    rw [idleNext] at testing
    cases testing
  polls_eq := polls
  covered swappedNext waiting := by
    rw [queued] at waiting
    rw [counter, awaiting, idleNext, ← idle]
    exact woken.covered (swapped swappedNext) waiting

theorem Woken.step {thread next : LoopThread Functor}
    {action : LoopAction Functor} (woken : thread.Woken)
    (step : LoopStep thread action next) : next.Woken := by
  have noTest := woken.noTest
  have pending := woken.pending_eq
  cases step with
  | enter point idle =>
      exact .uncovered (by simp [pending, point]) (by simp [idle])
        (fun _ => rfl) (by simp [SwappedLast])
  | reentered point _ =>
      have idle := noTest (by simp [point])
      exact .uncovered (by simp [pending, point]) (by simp [idle]) (by simp)
        (by simp [SwappedLast])
  | start point _ =>
      have idle := noTest (by simp [point])
      exact .uncovered (by simp [pending, point]) (by simp [idle])
        (fun _ => woken.polls_eq (.inl point)) (by simp [SwappedLast])
  | setLooping point =>
      have idle := noTest (by simp [point])
      exact .uncovered (by simp [pending, point]) (by simp [idle])
        (fun _ => woken.polls_eq (.inr (.inl point))) (by simp [SwappedLast])
  | clearQuit point =>
      have idle := noTest (by simp [point])
      have first := woken.polls_eq (.inr (.inr point))
      exact .uncovered (by simp [pending, point]) (by simp [idle]) (by simp)
        (by simp [SwappedLast, first])
  | leave point _ =>
      have idle := noTest (by simp [point])
      exact .uncovered (by simp [pending, point]) (by simp [idle]) (by simp)
        (by simp [SwappedLast])
  | stay point _ =>
      have idle := noTest (by simp [point])
      exact woken.goesOn (by simp [SwappedLast, point])
        (by simp [pending, point]) (by simp) idle idle rfl rfl rfl
  | poll readable point _ =>
      have idle := noTest (by simp [point])
      exact .uncovered (by simp [pending, point]) (by simp [idle]) (by simp)
        (by simp [SwappedLast])
  | handled point idle =>
      exact .uncovered (by simp [pending, point]) (by simp [idle]) (by simp)
        (by simp [SwappedLast])
  | setPending point =>
      have idle := noTest (by simp [point])
      exact .uncovered (by simp) (by simp [idle]) (by simp)
        (by simp [SwappedLast])
  | swap point =>
      have idle := noTest (by simp [point])
      constructor
      · simp [pending, point]
      · simp [idle]
      · simp
      · intro _ waiting
        exact (waiting rfl).elim
  | finish point _ =>
      have idle := noTest (by simp [point])
      exact woken.goesOn (by simp [SwappedLast, point])
        (by simp [pending, point]) (by simp) idle idle rfl rfl rfl
  | execute point _ =>
      have idle := noTest (by simp [point])
      exact woken.goesOn (by simp [SwappedLast, point])
        (by simp [pending, point]) (by simp) idle idle rfl rfl rfl
  | executed point idle =>
      exact woken.goesOn (by simp [SwappedLast, point])
        (by simp [pending, point]) (by simp) idle idle rfl rfl rfl
  | clearPending point =>
      have idle := noTest (by simp [point])
      exact woken.goesOn (by simp [SwappedLast, point]) (by simp) (by simp)
        idle idle rfl rfl rfl
  | clearLooping point =>
      have idle := noTest (by simp [point])
      exact .uncovered (by simp [pending, point]) (by simp [idle]) (by simp)
        (by simp [SwappedLast])
  | handleRead point =>
      exact .uncovered pending woken.testing_inUser woken.polls_eq
        (by simp [SwappedLast, point])
  | queueOwn functor inUser =>
      exact ⟨pending, fun _ => inUser, woken.polls_eq,
        fun _ _ => .inr (.inr rfl)⟩
  | queueOther functor =>
      exact ⟨pending, woken.testing_inUser, woken.polls_eq,
        fun _ _ => .inr (.inl (Nat.succ_pos _))⟩
  | testPending _ _ =>
      exact ⟨pending, by simp, woken.polls_eq,
        fun _ _ => .inl (Nat.succ_pos _)⟩
  | testIdle testing unset =>
      -- `functorPending_` is unset in the code of the user outside functors.
      have inUser := woken.testing_inUser testing
      rw [pending] at unset
      refine .uncovered pending (by simp) woken.polls_eq ?_
      cases point : thread.point <;> simp_all [SwappedLast]
  | wakeupWrite =>
      exact ⟨pending, woken.testing_inUser, woken.polls_eq,
        fun _ _ => .inl (Nat.succ_pos _)⟩
  | runOwn functor => exact woken
  | quit caller _ =>
      cases caller with
      | loopThread =>
          exact ⟨pending, woken.testing_inUser, woken.polls_eq, woken.covered⟩
      | otherThread =>
          exact ⟨pending, woken.testing_inUser, woken.polls_eq, woken.covered⟩
  | quitWakeup _ =>
      exact ⟨pending, woken.testing_inUser, woken.polls_eq,
        fun _ _ => .inl (Nat.succ_pos _)⟩

end LoopThread

section Runs

variable {actions : List (LoopAction Functor)}
variable {thread : LoopThread Functor}

theorem run_accounted
    (run : (loopMachine Functor).Run .new actions thread) :
    thread.Accounted :=
  Machine.Run.state_invariant LoopThread.Accounted LoopThread.new_accounted
    (fun _ _ _ accounted enabled stepped =>
      accounted.step (loopStep_of_step enabled stepped)) run

/-- Queued functors are executed once and in the order of their pushes; those
that are not yet executed are the rest of the batch and then the pending ones.
A functor pushed when a call of `doPendingFunctors` has swapped the vectors is
not executed by that call. -/
theorem functors_in_order
    (run : (loopMachine Functor).Run .new actions thread) :
    thread.pushed = thread.executed ++
        (thread.functors ++ thread.loop.pendingFunctors) ∧
      ∀ first second middle, actions = first ++ second →
        (loopMachine Functor).Run .new first middle →
        middle.point.afterSwap = true → thread.calls = middle.calls →
        thread.executed <+: middle.pushed := by
  constructor
  · exact (run_accounted run).accounts
  · intro first second middle split reached afterSwap sameCall
    rw [split] at run
    obtain ⟨other, before, rest⟩ := run.split
    obtain rfl := before.unique reached
    have same : other.SameBatch thread :=
      Machine.Run.state_invariant other.SameBatch
        (LoopThread.sameBatch_refl afterSwap)
        (fun _ _ _ same enabled stepped =>
          same.step (loopStep_of_step enabled stepped)) rest
    have batch := (same.2 sameCall).2.2
    have whole := (run_accounted reached).accounts.batch_prefix
    have front : thread.executed <+: other.executed ++ other.functors :=
      ⟨thread.functors, batch⟩
    exact front.trans whole

/-- Another thread queues `1`, and `1` queues `2` when it runs. -/
theorem functors_in_order_two :
    ∃ (actions : List (LoopAction Nat)) (thread : LoopThread Nat),
      (loopMachine Nat).Run .new actions thread ∧ thread.executed = [1] ∧
      thread.pushed = thread.executed ++
        (thread.functors ++ thread.loop.pendingFunctors) := by
  have found : ((loopMachine Nat).execute .new
      [.enter, .advance, .advance, .advance, .advance,
        .queueInLoop .otherThread 1, .wakeupWrite, .poll true, .handleRead,
        .advance, .advance, .advance, .advance, .queueInLoop .loopThread 2,
        .testWakeup]).any
      (fun thread => thread.executed = [1]) = true := by
    decide +kernel
  obtain ⟨thread, runs, accepted⟩ := Machine.run_of_execute found
  exact ⟨_, thread, runs, of_decide_eq_true accepted,
    (functors_in_order runs).1⟩

/-- A call of `loop` up to where `doPendingFunctors` swaps the vectors. -/
def untilSwap : List (LoopAction Unit) :=
  [.enter, .advance, .advance, .advance, .advance, .poll false, .advance,
    .advance]

/-- A functor pushed by another thread after a call of `doPendingFunctors` has
begun and before it swaps the vectors is executed by that call. -/
theorem functor_executed_in_call :
    ¬ ∀ (first second : List (LoopAction Unit))
      (middle thread : LoopThread Unit),
      (loopMachine Unit).Run .new first middle →
      (loopMachine Unit).Run .new (first ++ second) thread →
      middle.point.inPending = true → thread.calls = middle.calls →
      thread.executed <+: middle.pushed := by
  intro never
  have found : ((loopMachine Unit).execute .new untilSwap).any
      (fun middle => middle.point.inPending = true ∧ middle.calls = 1 ∧
        middle.pushed = []) = true := by
    decide +kernel
  have later : ((loopMachine Unit).execute .new (untilSwap ++
      [.queueInLoop .otherThread (), .advance, .advance])).any
      (fun thread => thread.calls = 1 ∧ thread.executed = [()]) = true := by
    decide +kernel
  obtain ⟨middle, reached, accepted⟩ := Machine.run_of_execute found
  obtain ⟨thread, runs, acceptedLater⟩ := Machine.run_of_execute later
  obtain ⟨inCall, first, nothing⟩ := of_decide_eq_true accepted
  obtain ⟨same, executed⟩ := of_decide_eq_true acceptedLater
  have before := never _ _ middle thread reached runs inCall
    (same.trans first.symm)
  rw [executed, nothing] at before
  exact absurd before.length_le (by decide)

theorem run_woken (run : (loopMachine Functor).Run .new actions thread) :
    thread.Woken :=
  Machine.Run.state_invariant LoopThread.Woken LoopThread.new_woken
    (fun _ _ _ woken enabled stepped =>
      woken.step (loopStep_of_step enabled stepped)) run

/-- The loop thread never enters its second or a later poll with a functor
pending unless the eventfd is readable or another thread is about to write to
it. -/
theorem poll_woken (run : (loopMachine Functor).Run .new actions thread)
    (about : thread.point = .poll) (later : 0 < thread.polls)
    (waiting : thread.loop.pendingFunctors ≠ []) :
    0 < thread.loop.wakeupFd ∨ 0 < thread.awaiting := by
  have woken := run_woken run
  have idle : thread.testing = false := woken.noTest (by simp [about])
  rcases woken.covered (.inr ⟨.inr about, later⟩) waiting with
    readable | awaiting | testing
  · exact .inl readable
  · exact .inr awaiting
  · rw [idle] at testing
    cases testing

/-- A functor queues another one, and the loop goes on to its second poll. -/
theorem poll_woken_second :
    ∃ (actions : List (LoopAction Nat)) (thread : LoopThread Nat),
      (loopMachine Nat).Run .new actions thread ∧ thread.point = .poll ∧
      thread.polls = 1 ∧ thread.loop.pendingFunctors = [2] ∧
      (0 < thread.loop.wakeupFd ∨ 0 < thread.awaiting) := by
  have found : ((loopMachine Nat).execute .new
      [.enter, .advance, .advance, .advance, .advance,
        .queueInLoop .otherThread 1, .wakeupWrite, .poll true, .handleRead,
        .advance, .advance, .advance, .advance, .queueInLoop .loopThread 2,
        .testWakeup, .advance, .advance, .advance, .advance]).any
      (fun thread => thread.point = .poll ∧ thread.polls = 1 ∧
        thread.loop.pendingFunctors = [2]) = true := by
    decide +kernel
  obtain ⟨thread, runs, accepted⟩ := Machine.run_of_execute found
  obtain ⟨about, polls, pending⟩ := of_decide_eq_true accepted
  have later : 0 < thread.polls := by omega
  have waiting : thread.loop.pendingFunctors ≠ [] := by simp [pending]
  exact ⟨_, thread, runs, about, polls, pending,
    poll_woken runs about later waiting⟩

end Runs

end Muduo
