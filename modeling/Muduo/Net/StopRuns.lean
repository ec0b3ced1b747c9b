import Muduo.Net.ConnectRuns

/-!
# Stopped sockets

`stopInLoop` ends an attempt, but it cancels no retry timer and no start that is
queued.  A stopped socket connects again exactly when one of these comes due
while the state is `Stopped`.
-/

namespace Muduo

open Library

namespace Connector

/-- The steps that the loop takes on its own. -/
def OfLoop : ConnectAction → Prop
  | .retryTimer _ _ | .runFunctor _ | .handleWrite _ _ => True
  | .start _ _ | .stop | .restart _ | .outside _ _ => False

/-- `stopInLoop` ran since the owner last asked for a connection, and there was
no connection then. -/
def Halted (connector : Connector) : Prop :=
  ∃ found, connector.stopped = some found ∧ found ≠ .Connected

/-- A step of the loop that connects, or that gives the owner a connection,
though the socket was stopped. -/
def Resumes (connector : Connector) (action : ConnectAction) : Prop :=
  OfLoop action ∧ connector.Halted ∧
    ∃ next, connector.step action = .ok next ∧
      next.socket.trace ≠ connector.socket.trace

/-- A step of the loop that runs `startInLoop`. -/
def StartsAgain (connector : Connector) : ConnectAction → Prop
  | .retryTimer _ _ => True
  | .runFunctor _ => connector.nextFunctor = some .startInLoop
  | .start _ _ | .stop | .restart _ | .handleWrite _ _ | .outside _ _ => False

/-- Neither a retry timer nor a queued start comes due in a stopped socket. -/
def Rests (connector : Connector) (action : ConnectAction) : Prop :=
  connector.stopped ≠ none → connector.socket.connectState = .Stopped →
    ¬ connector.StartsAgain action

/-- What `stopInLoop` made of the state, until the owner asks again. -/
def Quiet (connector : Connector) : Prop :=
  ∀ found, connector.stopped = some found →
    connector.socket.connectState =
      if found = .Connected then .Connected else .Stopped

instance decidableStartsAgain (connector : Connector) :
    (action : ConnectAction) → Decidable (connector.StartsAgain action)
  | .retryTimer _ _ => inferInstanceAs (Decidable True)
  | .runFunctor _ =>
      inferInstanceAs (Decidable (connector.nextFunctor = some .startInLoop))
  | .start _ _ | .stop | .restart _ | .handleWrite _ _ | .outside _ _ =>
      inferInstanceAs (Decidable False)

instance decidableRests (connector : Connector) (action : ConnectAction) :
    Decidable (connector.Rests action) := by
  unfold Rests
  infer_instance

variable {connector next : Connector} {action : ConnectAction}

theorem Quiet.of_none (none : connector.stopped = none) : connector.Quiet := by
  intro found stopped
  cases none.symm.trans stopped

theorem Quiet.other (quiet : connector.Quiet)
    (stopped : connector.stopped ≠ none) :
    connector.socket.connectState ≠ .Connecting := by
  obtain ⟨found, same⟩ := Option.ne_none_iff_exists'.mp stopped
  rw [quiet found same]
  split
  · decide
  · decide

theorem Quiet.connected (quiet : connector.Quiet)
    (stopped : connector.stopped ≠ none)
    (running : connector.socket.connectState ≠ .Stopped) :
    connector.socket.connectState = .Connected := by
  obtain ⟨found, same⟩ := Option.ne_none_iff_exists'.mp stopped
  have state := quiet found same
  by_cases connected : found = .Connected
  · rwa [if_pos connected] at state
  · rw [if_neg connected] at state
    exact absurd state running

theorem Quiet.of_same (quiet : connector.Quiet)
    (stopped : next.stopped = connector.stopped)
    (state : next.socket.connectState = connector.socket.connectState) :
    next.Quiet := by
  intro found same
  rw [state]
  exact quiet found (stopped.symm.trans same)

theorem startInLoop_cases {socket after : ConnectSocket} {attempt : Attempt}
    (started : socket.startInLoop attempt = .ok after) :
    (socket.connectState = .Stopped ∧
        after.trace = socket.trace ++ [.connect attempt.fd]) ∨
      (socket.connectState ≠ .Stopped ∧ after = socket) := by
  by_cases stopped : socket.connectState = .Stopped
  · rw [ConnectSocket.startInLoop, if_pos stopped] at started
    exact .inl ⟨stopped, (ConnectSocket.connect_leaves started).trace⟩
  · rw [ConnectSocket.startInLoop, if_neg stopped] at started
    exact .inr ⟨stopped, (Except.ok.inj started).symm⟩

/-- A step that runs `startInLoop` connects, or leaves things as they are. -/
theorem step_startsAgain (again : connector.StartsAgain action)
    (stepped : connector.step action = .ok next) :
    next.stopped = connector.stopped ∧
      ((connector.socket.connectState = .Stopped ∧
          next.socket.trace ≠ connector.socket.trace) ∨
        (connector.socket.connectState ≠ .Stopped ∧
          next.socket.connectState = connector.socket.connectState ∧
          next.socket.trace = connector.socket.trace)) := by
  cases action with
  | retryTimer index attempt =>
      obtain ⟨after, started, result⟩ := bind_eq_ok stepped
      cases result
      refine ⟨rfl, ?_⟩
      rcases startInLoop_cases started with ⟨stopped, trace⟩ | ⟨other, rfl⟩
      · exact .inl ⟨stopped, by simp [trace]⟩
      · exact .inr ⟨other, rfl, rfl⟩
  | runFunctor attempt =>
      obtain ⟨after, ran, result⟩ := bind_eq_ok stepped
      cases result
      have first : connector.nextFunctor = some .startInLoop := again
      refine ⟨by simp [stoppedAfter, first], ?_⟩
      obtain ⟨rest, functors⟩ := List.head?_eq_some_iff.mp first
      simp only [ConnectSocket.runFunctor, functors] at ran
      rcases startInLoop_cases ran with ⟨stopped, trace⟩ | ⟨other, rfl⟩
      · exact .inl ⟨stopped, by simp [trace]⟩
      · exact .inr ⟨other, rfl, rfl⟩
  | start inLoopThread attempt => exact again.elim
  | stop => exact again.elim
  | restart attempt => exact again.elim
  | handleWrite fd check => exact again.elim
  | outside party outside => exact again.elim

theorem step_stopInLoop {attempt : Attempt} (quiet : connector.Quiet)
    (other : ¬ connector.StartsAgain (.runFunctor attempt))
    (stepped : connector.step (.runFunctor attempt) = .ok next) :
    next.Quiet ∧ next.socket.trace = connector.socket.trace := by
  obtain ⟨after, ran, result⟩ := bind_eq_ok stepped
  cases result
  cases functors : connector.socket.pendingFunctors with
  | nil =>
      simp only [ConnectSocket.runFunctor, functors] at ran
      obtain rfl := Except.ok.inj ran
      refine ⟨quiet.of_same ?_ rfl, rfl⟩
      simp [stoppedAfter, nextFunctor, functors]
  | cons functor rest =>
      simp only [ConnectSocket.runFunctor, functors] at ran
      cases functor with
      | startInLoop =>
          have again : connector.nextFunctor = some .startInLoop := by
            simp [nextFunctor, functors]
          exact absurd again other
      | stopInLoop =>
          obtain ⟨leaves, state⟩ := ConnectSocket.stopInLoop_leaves ran
          refine ⟨?_, leaves.trace.trans (List.append_nil _)⟩
          intro found stopped
          have same : connector.socket.connectState = found := by
            simpa [stoppedAfter, nextFunctor, functors] using stopped
          rw [state, same]
          cases found <;> rfl

theorem step_handleWrite {fd : Int} {check : SocketCheck}
    (quiet : connector.Quiet)
    (stepped : connector.step (.handleWrite fd check) = .ok next) :
    next.stopped = connector.stopped ∧
      (connector.stopped ≠ none → next = connector) := by
  obtain ⟨⟨after, given⟩, handled, result⟩ := bind_eq_ok stepped
  cases result
  constructor
  · cases given with
    | none => rfl
    | some fd => rfl
  · intro stopped
    have other := quiet.other stopped
    cases (ConnectSocket.handleWrite_other other).symm.trans handled
    rfl

theorem Quiet.step (quiet : connector.Quiet) (rests : connector.Rests action)
    (stepped : connector.step action = .ok next) : next.Quiet := by
  cases action with
  | start inLoopThread attempt =>
      obtain ⟨after, _, result⟩ := bind_eq_ok stepped
      cases result
      exact .of_none rfl
  | stop =>
      cases stepped
      exact quiet.of_same rfl rfl
  | restart attempt =>
      obtain ⟨after, _, result⟩ := bind_eq_ok stepped
      cases result
      exact .of_none rfl
  | retryTimer index attempt =>
      have again : connector.StartsAgain (.retryTimer index attempt) := trivial
      obtain ⟨same, either⟩ := step_startsAgain again stepped
      by_cases none : connector.stopped = none
      · exact .of_none (same.trans none)
      · rcases either with ⟨stopped, _⟩ | ⟨_, state, _⟩
        · exact absurd again (rests none stopped)
        · exact quiet.of_same same state
  | runFunctor attempt =>
      by_cases again : connector.StartsAgain (.runFunctor attempt)
      · obtain ⟨same, either⟩ := step_startsAgain again stepped
        by_cases none : connector.stopped = none
        · exact .of_none (same.trans none)
        · rcases either with ⟨stopped, _⟩ | ⟨_, state, _⟩
          · exact absurd again (rests none stopped)
          · exact quiet.of_same same state
      · exact (step_stopInLoop quiet again stepped).1
  | handleWrite fd check =>
      obtain ⟨same, unchanged⟩ := step_handleWrite quiet stepped
      by_cases none : connector.stopped = none
      · exact .of_none (same.trans none)
      · rwa [unchanged none]
  | outside party outside =>
      obtain rfl := Except.ok.inj stepped
      obtain ⟨_, state, _, _⟩ := connector.socket.outside_kept party outside
      exact quiet.of_same rfl state

/-- At every step, being at rest is what it takes not to resume. -/
theorem Quiet.rests_iff (quiet : connector.Quiet)
    (stepped : connector.step action = .ok next) :
    ¬ connector.Resumes action ↔ connector.Rests action := by
  constructor
  · intro silent halted stopped again
    apply silent
    obtain ⟨_, either⟩ := step_startsAgain again stepped
    obtain ⟨found, same⟩ := Option.ne_none_iff_exists'.mp halted
    have unconnected : found ≠ .Connected := by
      rintro rfl
      cases (quiet .Connected same).symm.trans stopped
    refine ⟨?_, ⟨found, same, unconnected⟩, next, stepped, ?_⟩
    · cases action with
      | retryTimer index attempt => trivial
      | runFunctor attempt => trivial
      | start inLoopThread attempt => exact again.elim
      | stop => exact again.elim
      | restart attempt => exact again.elim
      | handleWrite fd check => exact again.elim
      | outside party outside => exact again.elim
    · rcases either with ⟨_, trace⟩ | ⟨other, _, _⟩
      · exact trace
      · exact absurd stopped other
  · rintro rests ⟨ofLoop, ⟨found, same, unconnected⟩, other, result, trace⟩
    obtain rfl := Except.ok.inj (stepped.symm.trans result)
    have halted : connector.stopped ≠ none := by simp [same]
    by_cases again : connector.StartsAgain action
    · obtain ⟨_, either⟩ := step_startsAgain again stepped
      rcases either with ⟨stopped, _⟩ | ⟨_, _, unchanged⟩
      · exact rests halted stopped again
      · exact trace unchanged
    · cases action with
      | retryTimer index attempt => exact again trivial
      | runFunctor attempt =>
          exact trace (step_stopInLoop quiet again stepped).2
      | handleWrite fd check =>
          rw [(step_handleWrite quiet stepped).2 halted] at trace
          exact trace rfl
      | start inLoopThread attempt => exact ofLoop
      | stop => exact ofLoop
      | restart attempt => exact ofLoop
      | outside party outside => exact ofLoop

/-- In a run no stopped socket connects again exactly if no retry timer and no
queued start comes due in one. -/
theorem stop_final_iff {actions : List ConnectAction} {final : Connector}
    (run : machine.Run new actions final) :
    ¬ machine.Happens Resumes new actions ↔
      (machine.restrict Rests).Run new actions final := by
  have base : new.Quiet := .of_none rfl
  apply run.not_happens_iff_restrict base
  · intro connector action next quiet _ rests stepped
    exact quiet.step rests stepped
  · intro connector action next quiet _ stepped
    exact quiet.rests_iff stepped

/-- An attempt that is refused, one that is stopped, and a retry timer that only
comes due after the owner has asked again. -/
theorem stop_final_iff_restarted :
    ∃ actions final, machine.Run new actions final ∧
      final.stopped = some .Connecting ∧
      final.socket.retryTimers = [] ∧
      ¬ machine.Happens Resumes new actions := by
  have found : ((machine.restrict Rests).execute new
      [.start true ⟨5, .ECONNREFUSED⟩, .start true ⟨5, .EINPROGRESS⟩, .stop,
        .runFunctor ⟨6, .success⟩, .start true ⟨5, .EINPROGRESS⟩,
        .retryTimer 0 ⟨6, .success⟩, .stop,
        .runFunctor ⟨6, .success⟩]).any
      (fun final => final.stopped = some .Connecting ∧
        final.socket.retryTimers = []) = true := by
    decide +kernel
  obtain ⟨final, restricted, reached⟩ := Machine.run_of_execute found
  obtain ⟨stopped, timers⟩ := of_decide_eq_true reached
  have run := restricted.of_restrict
  exact ⟨_, final, run, stopped, timers, (stop_final_iff run).mpr restricted⟩

/-- The first attempt is refused, the owner stops the socket, and the retry timer
connects it again. -/
theorem stopped_socket_connects :
    ∃ connector : Connector,
      machine.Run new [.start true ⟨5, .ECONNREFUSED⟩, .stop,
        .runFunctor ⟨5, .success⟩] connector ∧
      connector.stopped = some .Stopped ∧
      connector.Resumes (.retryTimer 0 ⟨5, .EINPROGRESS⟩) ∧
      machine.Happens Resumes new [.start true ⟨5, .ECONNREFUSED⟩, .stop,
        .runFunctor ⟨5, .success⟩, .retryTimer 0 ⟨5, .EINPROGRESS⟩] := by
  have found : (machine.execute new [.start true ⟨5, .ECONNREFUSED⟩, .stop,
      .runFunctor ⟨5, .success⟩]).any
      (fun connector => connector.stopped = some .Stopped ∧
        (match connector.step (.retryTimer 0 ⟨5, .EINPROGRESS⟩) with
          | .ok next => decide (next.socket.trace ≠ connector.socket.trace)
          | .error _ => false) = true) = true := by
    decide +kernel
  obtain ⟨connector, run, reached⟩ := Machine.run_of_execute found
  obtain ⟨stopped, connects⟩ := of_decide_eq_true reached
  have resumes : connector.Resumes (.retryTimer 0 ⟨5, .EINPROGRESS⟩) := by
    refine ⟨trivial, ⟨.Stopped, stopped, by decide⟩, ?_⟩
    split at connects
    · next after stepped => exact ⟨after, stepped, of_decide_eq_true connects⟩
    · cases connects
  exact ⟨connector, run, stopped, resumes, _, _, [], connector, rfl, run,
    resumes⟩

end Connector

end Muduo
