import Muduo.Net.EventLoopRuns

/-!
# Quitting a loop that runs

Once `loop` has cleared `quit_`, a call of `quit` by any thread ends it: the loop
does not begin another poll but the one that it is about to begin, and that one
cannot block.
-/

namespace Muduo

open Library

universe u

variable {Functor : Type u}

namespace LoopPoint

/-- `loop` has set its flags and has not returned. -/
def running : LoopPoint → Bool
  | outside | testLooping | setLooping | clearQuit => false
  | testQuit | poll | events | setPending | swap | functors | functor
  | clearPending | clearLooping => true

end LoopPoint

namespace LoopThread

/-- A poll that begins with `quit_` set finds the eventfd readable, or soon will. -/
def Alert (thread : LoopThread Functor) : Prop :=
  thread.point = .poll → thread.loop.quit = true →
    0 < thread.loop.wakeupFd ∨ 0 < thread.quitting

theorem Alert.step {thread next : LoopThread Functor}
    {action : LoopAction Functor} (alert : thread.Alert)
    (step : LoopStep thread action next) : next.Alert := by
  intro poll quit
  cases step with
  | enter | reentered | start | setLooping | clearQuit | leave | poll | handled
  | setPending | swap | finish | execute | executed | clearPending
  | clearLooping => cases poll
  | stay point unset =>
      have set : thread.loop.quit = true := quit
      rw [unset] at set
      cases set
  | handleRead point =>
      have there : thread.point = .poll := poll
      rw [point] at there
      cases there
  | queueOwn functor inUser => exact alert poll quit
  | queueOther functor => exact alert poll quit
  | testPending _ _ => exact .inl (Nat.succ_pos _)
  | testIdle _ _ => exact alert poll quit
  | wakeupWrite => exact .inl (Nat.succ_pos _)
  | runOwn functor => exact alert poll quit
  | quit caller mayCall =>
      cases caller with
      | loopThread =>
          have there : thread.point = .poll := poll
          have inUser := mayCall.1
          rw [there] at inUser
          cases inUser
      | otherThread => exact .inr (Nat.succ_pos _)
  | quitWakeup _ => exact .inl (Nat.succ_pos _)

/-- What may have become of `thread`, which was told to quit, in the same call of
`loop`. -/
structure Quits (thread state : LoopThread Functor) : Prop where
  polls : state.polls ≤
    thread.polls + if thread.point = .poll then 1 else 0
  last : state.point = .poll →
    thread.point = .poll ∧ state.polls = thread.polls
  ends : state.point = .outside ∨
    state.point.running = true ∧ state.loop.quit = true

theorem quits_refl {thread : LoopThread Functor}
    (running : thread.point.running = true) (quit : thread.loop.quit = true) :
    thread.Quits thread where
  polls := Nat.le_add_right _ _
  last poll := ⟨poll, rfl⟩
  ends := .inr ⟨running, quit⟩

theorem Quits.moved {thread state next : LoopThread Functor}
    (quits : thread.Quits state) (polls : next.polls = state.polls)
    (point : next.point ≠ .poll)
    (ends : next.point = .outside ∨
      next.point.running = true ∧ next.loop.quit = true) :
    thread.Quits next where
  polls := by
    rw [polls]
    exact quits.polls
  last poll := absurd poll point
  ends := ends

theorem Quits.called {thread state next : LoopThread Functor}
    (quits : thread.Quits state) (polls : next.polls = state.polls)
    (point : next.point = state.point)
    (quit : state.loop.quit = true → next.loop.quit = true) :
    thread.Quits next where
  polls := by
    rw [polls]
    exact quits.polls
  last poll := by
    rw [polls]
    exact quits.last (point.symm.trans poll)
  ends := by
    rw [point]
    rcases quits.ends with outside | ⟨running, set⟩
    · exact .inl outside
    · exact .inr ⟨running, quit set⟩

theorem Quits.step {thread state next : LoopThread Functor}
    {action : LoopAction Functor} (quits : thread.Quits state)
    (step : LoopStep state action next) (same : action ≠ .enter) :
    thread.Quits next := by
  have runs (point : LoopPoint) (here : state.point = point)
      (inside : point ≠ .outside) :
      point.running = true ∧ state.loop.quit = true := by
    rcases quits.ends with outside | running
    · exact absurd (here.symm.trans outside) inside
    · rw [← here]
      exact running
  cases step with
  | enter => exact absurd rfl same
  | reentered point | start point | setLooping point | clearQuit point =>
      have running := (runs _ point (by simp)).1
      cases running
  | stay point unset =>
      have set := (runs _ point (by simp)).2
      rw [unset] at set
      cases set
  | poll readable point _ =>
      obtain ⟨there, same⟩ := quits.last point
      have set := (runs _ point (by simp)).2
      refine ⟨?_, ?_, .inr ⟨rfl, set⟩⟩
      · show state.polls + 1 ≤ _
        exact Nat.le_of_eq (by rw [same, if_pos there])
      · intro poll
        cases poll
  | clearLooping point =>
      exact quits.moved rfl (by simp) (.inl rfl)
  | leave point _ | handled point _ | setPending point | swap point
  | finish point _ | execute point _ | executed point _ | clearPending point =>
      have set := (runs _ point (by simp)).2
      exact quits.moved rfl (by simp) (.inr ⟨rfl, set⟩)
  | handleRead | queueOwn | queueOther | testPending | testIdle | wakeupWrite
  | runOwn | quitWakeup =>
      exact quits.called rfl rfl id
  | quit caller _ =>
      cases caller with
      | loopThread => exact quits.called rfl rfl fun _ => rfl
      | otherThread => exact quits.called rfl rfl fun _ => rfl

end LoopThread

section Runs

variable {actions rest : List (LoopAction Functor)}
variable {thread later : LoopThread Functor}

/-- A poll that begins after a `quit` does not block, and from a `quit` on, in the
same call of `loop`, no poll begins but the one that was about to, and `quit_`
stays set until `loop` returns. -/
theorem run_quits (run : (loopMachine Functor).Run .new actions thread) :
    (thread.point = .poll → thread.loop.quit = true →
      0 < thread.loop.wakeupFd ∨ 0 < thread.quitting) ∧
    (thread.point.running = true → thread.loop.quit = true →
      ∀ rest later, (loopMachine Functor).Run thread rest later →
      .enter ∉ rest →
      later.polls ≤ thread.polls + (if thread.point = .poll then 1 else 0) ∧
      (later.point = .poll → thread.point = .poll) ∧
      (later.point = .outside ∨ later.loop.quit = true)) := by
  have alert : thread.Alert := by
    apply Machine.Run.state_invariant LoopThread.Alert ?_ ?_ run
    · intro poll
      cases poll
    · intro thread action next alert enabled stepped
      exact alert.step (loopStep_of_step enabled stepped)
  refine ⟨alert, ?_⟩
  intro running quit rest later on same
  have quits : .enter ∉ rest → thread.Quits later := by
    apply Machine.Run.invariant
      (fun rest later => .enter ∉ rest → thread.Quits later) ?_ ?_ on
    · intro _
      exact LoopThread.quits_refl running quit
    · intro rest state action next _ induction enabled stepped same
      simp only [List.mem_append, List.mem_singleton, not_or] at same
      exact (induction same.1).step (loopStep_of_step enabled stepped)
        (Ne.symm same.2)
  have quits := quits same
  refine ⟨quits.polls, fun poll => (quits.last poll).1, ?_⟩
  rcases quits.ends with outside | ⟨_, set⟩
  · exact .inl outside
  · exact .inr set

/-- Another thread quits the loop when it is about to poll. -/
theorem poll_quits : ∃ thread : LoopThread Unit,
    thread.point = .poll ∧
    (0 < thread.loop.wakeupFd ∨ 0 < thread.quitting) ∧
    ∀ rest later, (loopMachine Unit).Run thread rest later →
      .enter ∉ rest →
      later.polls ≤ thread.polls + 1 ∧
      (later.point = .outside ∨ later.loop.quit = true) := by
  have found : ((loopMachine Unit).execute .new
      [.enter, .advance, .advance, .advance, .advance, .quit .otherThread]).any
      (fun thread => thread.point = .poll ∧ thread.loop.quit = true) = true := by
    decide +kernel
  obtain ⟨thread, run, reached⟩ := Machine.run_of_execute found
  obtain ⟨poll, quit⟩ := of_decide_eq_true reached
  obtain ⟨alert, ends⟩ := run_quits run
  refine ⟨thread, poll, alert poll quit, ?_⟩
  intro rest later on same
  obtain ⟨polls, _, set⟩ := ends (by rw [poll]; rfl) quit rest later on same
  rw [if_pos poll] at polls
  exact ⟨polls, set⟩

end Runs

end Muduo
