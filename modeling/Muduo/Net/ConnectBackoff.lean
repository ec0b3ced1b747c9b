import Mathlib.Algebra.Group.Nat.Defs
import Muduo.Net.ConnectRuns

/-!
# The delays between attempts

Each failed attempt sets a timer, and the delays double up to a bound.  Only a
restart begins anew; stopping and starting the socket does not.
-/

namespace Muduo

open Library

/-- What is seen of the delays: a restart, or a timer set for a retry. -/
inductive RetryEvent where
  | restarted
  | retried (delay : Nat)
  deriving DecidableEq, Repr

namespace RetryEvent

/-- The delay of a timer. -/
def delay? : RetryEvent → Option Nat
  | restarted => none
  | retried delay => some delay

/-- The retries so far, beginning anew with a restart. -/
def count (retries : Nat) : RetryEvent → Nat
  | restarted => 0
  | retried _ => retries + 1

end RetryEvent

/-- The retries since the last restart. -/
def retriesIn (events : List RetryEvent) : Nat :=
  events.foldl RetryEvent.count 0

/-- The delays of all timers that were set. -/
def delaysIn (events : List RetryEvent) : List Nat :=
  events.filterMap RetryEvent.delay?

/-- The delay that follows a number of retries. -/
def backoff (retries : Nat) : Nat :=
  min (InitRetryTimeMs * 2 ^ retries) MaxRetryTimeMs

/-- Every delay is the one that follows the retries before it. -/
def BacksOff (events : List RetryEvent) : Prop :=
  ∀ before delay later, events = before ++ .retried delay :: later →
    delay = backoff (retriesIn before)

section Events

variable {events : List RetryEvent}

theorem retriesIn_concat (event : RetryEvent) :
    retriesIn (events ++ [event]) = event.count (retriesIn events) := by
  rw [retriesIn, List.foldl_append]
  rfl

theorem delaysIn_retried (delay : Nat) :
    delaysIn (events ++ [.retried delay]) = delaysIn events ++ [delay] := by
  simp [delaysIn, RetryEvent.delay?]

theorem delaysIn_restarted :
    delaysIn (events ++ [.restarted]) = delaysIn events := by
  simp [delaysIn, RetryEvent.delay?]

theorem backoff_succ (retries : Nat) :
    min (backoff retries * 2) MaxRetryTimeMs = backoff (retries + 1) := by
  simp only [backoff, InitRetryTimeMs, MaxRetryTimeMs, Nat.pow_succ]
  omega

theorem backsOff_nil : BacksOff [] := by
  intro before delay later split
  simp at split

theorem BacksOff.concat (backsOff : BacksOff events) {event : RetryEvent}
    (last : ∀ delay, event = .retried delay →
      delay = backoff (retriesIn events)) :
    BacksOff (events ++ [event]) := by
  intro before delay later split
  rcases List.eq_nil_or_concat later with rfl | ⟨front, final, rfl⟩
  · obtain ⟨rfl, same⟩ := List.append_inj' split rfl
    exact last delay (List.singleton_inj.mp same)
  · rw [List.concat_eq_append, ← List.cons_append,
      ← List.append_assoc] at split
    obtain ⟨same, _⟩ := List.append_inj' split rfl
    exact backsOff before delay front same

end Events

namespace ConnectSocket

/-- Calls set one timer at most, for the delay of the moment, and double the
delay then. -/
inductive SetsTimer (socket next : ConnectSocket) : Prop where
  | none : next.retryTimers = socket.retryTimers →
      next.retryTimeMs = socket.retryTimeMs → SetsTimer socket next
  | one : next.retryTimers = socket.retryTimers ++ [socket.retryTimeMs] →
      next.retryTimeMs = min (socket.retryTimeMs * 2) MaxRetryTimeMs →
      SetsTimer socket next

variable {socket next : ConnectSocket} {attempt : Attempt}

theorem updateInPoll_timers {flag : OptFlag}
    (updated : socket.updateInPoll flag = .ok next) :
    next.retryTimers = socket.retryTimers ∧
      next.retryTimeMs = socket.retryTimeMs := by
  obtain ⟨result, _, same⟩ := bind_eq_ok updated
  cases same
  exact ⟨rfl, rfl⟩

theorem deregister_timers (removed : socket.deregister = .ok next) :
    next.retryTimers = socket.retryTimers ∧
      next.retryTimeMs = socket.retryTimeMs := by
  have updated : { socket with
      handler := socket.handler.disableAll }.updateInPoll .DelEvent =
        .ok next := removed
  have kept := updateInPoll_timers updated
  exact kept

theorem connect_setsTimer (connected : socket.connect attempt = .ok next) :
    socket.SetsTimer next := by
  rw [connect_eq] at connected
  cases outcome : attempt.errno.outcome with
  | pending =>
      simp only [outcome] at connected
      obtain ⟨timers, delay⟩ := updateInPoll_timers connected
      exact .none timers delay
  | retried =>
      simp only [outcome] at connected
      obtain rfl := Except.ok.inj connected
      exact .one rfl rfl
  | failed =>
      simp only [outcome] at connected
      obtain rfl := Except.ok.inj connected
      exact .none rfl rfl

theorem startInLoop_setsTimer
    (started : socket.startInLoop attempt = .ok next) :
    socket.SetsTimer next := by
  rw [startInLoop] at started
  split at started
  next stopped => exact connect_setsTimer started
  next other =>
    obtain rfl := Except.ok.inj started
    exact .none rfl rfl

theorem stopInLoop_setsTimer (stopped : socket.stopInLoop = .ok next) :
    socket.SetsTimer next := by
  rw [stopInLoop] at stopped
  split at stopped
  next connecting =>
    obtain ⟨middle, removed, result⟩ := bind_eq_ok stopped
    obtain ⟨timers, delay⟩ := deregister_timers removed
    obtain rfl := Except.ok.inj result
    exact .none timers delay
  next other =>
    obtain rfl := Except.ok.inj stopped
    exact .none rfl rfl

theorem handleWrite_setsTimer {check : SocketCheck} {given : Option Int}
    (handled : socket.handleWrite check = .ok (next, given)) :
    socket.SetsTimer next := by
  rw [handleWrite] at handled
  split at handled
  next connecting =>
    obtain ⟨middle, removed, result⟩ := bind_eq_ok handled
    obtain ⟨timers, delay⟩ := deregister_timers removed
    have retried : socket.SetsTimer middle.retry := by
      apply SetsTimer.one
      · rw [← timers, ← delay]
        rfl
      · rw [← delay]
        rfl
    split at result
    · cases result
      exact retried
    · split at result
      · cases result
        exact retried
      · cases result
        exact .none timers delay
  next other =>
    cases handled
    exact .none rfl rfl

theorem runFunctor_setsTimer (ran : socket.runFunctor attempt = .ok next) :
    socket.SetsTimer next := by
  rw [runFunctor] at ran
  split at ran
  next none =>
    obtain rfl := Except.ok.inj ran
    exact .none rfl rfl
  next functors _ =>
    have started := startInLoop_setsTimer ran
    cases started with
    | none timers delay => exact .none timers delay
    | one timers delay => exact .one timers delay
  next functors _ =>
    have stopped := stopInLoop_setsTimer ran
    cases stopped with
    | none timers delay => exact .none timers delay
    | one timers delay => exact .one timers delay

end ConnectSocket

namespace Connector

variable {connector next : Connector} {action : ConnectAction}

/-- The timers that are still set when an action begins. -/
def timersAt (connector : Connector) : ConnectAction → List Nat
  | .retryTimer index _ => connector.socket.retryTimers.eraseIdx index
  | .start _ _ | .stop | .restart _ | .runFunctor _ | .handleWrite _ _
  | .outside _ _ => connector.socket.retryTimers

def restarts : ConnectAction → List RetryEvent
  | .restart _ => [.restarted]
  | .start _ _ | .stop | .retryTimer _ _ | .runFunctor _ | .handleWrite _ _
  | .outside _ _ => []

/-- A restart, and the timers that are set afterwards and were not before. -/
def retryEvents (connector : Connector) (action : ConnectAction) :
    List RetryEvent :=
  restarts action ++
    match connector.step action with
    | .error _ => []
    | .ok next => (next.socket.retryTimers.drop
        (connector.timersAt action).length).map .retried

/-- The socket whose delay a step goes by. -/
def base (connector : Connector) (action : ConnectAction) : ConnectSocket :=
  { connector.socket with
    retryTimers := connector.timersAt action
    retryTimeMs := if restarts action = [] then connector.socket.retryTimeMs
      else InitRetryTimeMs }

theorem step_setsTimer (stepped : connector.step action = .ok next) :
    (connector.base action).SetsTimer next.socket := by
  cases action with
  | start inLoopThread attempt =>
      obtain ⟨socket, started, last⟩ := bind_eq_ok stepped
      obtain rfl := Except.ok.inj last
      cases inLoopThread with
      | true => exact ConnectSocket.startInLoop_setsTimer started
      | false =>
          obtain rfl := Except.ok.inj started
          exact .none rfl rfl
  | stop =>
      obtain rfl := Except.ok.inj stepped
      exact .none rfl rfl
  | restart attempt =>
      obtain ⟨socket, restarted, last⟩ := bind_eq_ok stepped
      obtain rfl := Except.ok.inj last
      exact ConnectSocket.connect_setsTimer restarted
  | retryTimer index attempt =>
      obtain ⟨socket, started, last⟩ := bind_eq_ok stepped
      obtain rfl := Except.ok.inj last
      exact ConnectSocket.startInLoop_setsTimer started
  | runFunctor attempt =>
      obtain ⟨socket, ran, last⟩ := bind_eq_ok stepped
      obtain rfl := Except.ok.inj last
      exact ConnectSocket.runFunctor_setsTimer ran
  | handleWrite fd check =>
      obtain ⟨⟨socket, given⟩, handled, last⟩ := bind_eq_ok stepped
      obtain rfl := Except.ok.inj last
      have sets := ConnectSocket.handleWrite_setsTimer handled
      cases given with
      | none => exact sets
      | some other =>
          cases sets with
          | none timers delay => exact .none timers delay
          | one timers delay => exact .one timers delay
  | outside party outside =>
      obtain rfl := Except.ok.inj stepped
      cases outside with
      | opens fd | watches fd events | unwatches fd | closes fd =>
          exact .none rfl rfl

/-- What has been seen of the delays, and the delay that comes next. -/
structure Retries (connector : Connector) (events : List RetryEvent) :
    Prop where
  backsOff : BacksOff events
  delay_eq : connector.socket.retryTimeMs = backoff (retriesIn events)
  timers_seen : connector.socket.retryTimers.Sublist (delaysIn events)

theorem new_retries : new.Retries [] where
  backsOff := backsOff_nil
  delay_eq := rfl
  timers_seen := .refl _

/-- A restart is seen before the timer that its attempt may set. -/
theorem Retries.base {events : List RetryEvent}
    (retries : connector.Retries events) (action : ConnectAction) :
    Retries { connector with socket := connector.base action }
      (events ++ restarts action) := by
  obtain ⟨backsOff, delay, timers⟩ := retries
  cases action with
  | restart attempt =>
      refine ⟨?_, ?_, ?_⟩
      · apply backsOff.concat
        intro delay same
        cases same
      · rw [restarts, retriesIn_concat]
        rfl
      · rw [restarts, delaysIn_restarted]
        exact timers
  | retryTimer index attempt =>
      rw [restarts, List.append_nil]
      exact ⟨backsOff, delay, (List.eraseIdx_sublist _ _).trans timers⟩
  | start inLoopThread attempt | stop | runFunctor attempt
  | handleWrite fd check | outside party outside =>
      rw [restarts, List.append_nil]
      exact ⟨backsOff, delay, timers⟩

theorem Retries.step {events : List RetryEvent}
    (retries : connector.Retries events)
    (stepped : connector.step action = .ok next) :
    next.Retries (events ++ connector.retryEvents action) := by
  obtain ⟨backsOff, delay, timers⟩ := retries.base action
  rw [retryEvents, stepped, ← List.append_assoc]
  simp only
  have sets := step_setsTimer stepped
  cases sets with
  | none same kept =>
      have unset : next.socket.retryTimers.drop
          (connector.timersAt action).length = [] := by
        rw [same]
        exact List.drop_length
      rw [unset, List.map_nil, List.append_nil]
      exact ⟨backsOff, kept.trans delay, same ▸ timers⟩
  | one added doubled =>
      have set : next.socket.retryTimers.drop
          (connector.timersAt action).length =
            [(connector.base action).retryTimeMs] := by
        rw [added]
        exact List.drop_left
      rw [set, List.map_singleton]
      refine ⟨?_, ?_, ?_⟩
      · apply backsOff.concat
        intro other same
        exact (RetryEvent.retried.inj same).symm.trans delay
      · rw [doubled, retriesIn_concat]
        exact (congrArg (fun ms => min (ms * 2) MaxRetryTimeMs) delay).trans
          (backoff_succ _)
      · rw [added, delaysIn_retried]
        exact timers.append_right _

/-- Along every run of a connecting socket, whatever its owner, its timers and
its loop do, the timer set for a retry has a delay of 500 ms doubled with each
retry since the last restart, up to 30 seconds; and each timer that is set was
set for a retry. -/
theorem run_backoff {actions : List ConnectAction} {final : Connector}
    (run : machine.Run new actions final) :
    BacksOff (machine.observed retryEvents new actions) ∧
      final.socket.retryTimers.Sublist
        (delaysIn (machine.observed retryEvents new actions)) := by
  have retries : final.Retries (machine.observed retryEvents new actions) := by
    apply run.invariant (fun actions connector =>
      connector.Retries (machine.observed retryEvents new actions))
    · exact new_retries
    · intro actions connector action next before retries _ stepped
      rw [before.observed_concat stepped]
      exact retries.step stepped
  exact ⟨retries.backsOff, retries.timers_seen⟩

/-- Seven refused attempts, one that succeeds, and a restart. -/
theorem refused_backoff :
    ∃ actions final, machine.Run new actions final ∧
      BacksOff (machine.observed retryEvents new actions) ∧
      delaysIn (machine.observed retryEvents new actions) =
        [500, 1000, 2000, 4000, 8000, 16000, 30000, 30000, 500] ∧
      final.socket.retryTimers = [500] := by
  let refused : List ConnectAction :=
    .replicate 7 (.retryTimer 0 ⟨5, .ECONNREFUSED⟩)
  let actions : List ConnectAction :=
    .start true ⟨5, .ECONNREFUSED⟩ :: refused ++
      [.retryTimer 0 ⟨5, .EINPROGRESS⟩, .handleWrite 5 ⟨0, false⟩,
        .outside .link (.closes 5), .restart ⟨5, .ECONNREFUSED⟩]
  have found : (machine.execute new actions).any (fun final =>
      final.socket.retryTimers = [500]) = true := by
    decide +kernel
  have seen : delaysIn (machine.observed retryEvents new actions) =
      [500, 1000, 2000, 4000, 8000, 16000, 30000, 30000, 500] := by
    decide +kernel
  obtain ⟨final, run, accepted⟩ := Machine.run_of_execute found
  exact ⟨actions, final, run, (run_backoff run).1, seen,
    of_decide_eq_true accepted⟩

end Connector

end Muduo
