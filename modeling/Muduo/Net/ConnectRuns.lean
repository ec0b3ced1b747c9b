import Muduo.Library.Machine
import Muduo.Net.ConnectSteps

/-!
# Runs of a connecting socket

The loop runs functors, retry timers and events in any order, the owner starts,
stops and restarts the socket, and the rest of the program opens, watches and
closes descriptors of its own.  The state of the socket agrees with its
descriptor as long as no attempt ends with a fatal outcome.
-/

namespace Muduo

open Library

/-- What became of the link that the owner was given last. -/
inductive LinkPhase where
  | absent
  | given (fd : Int)
  | closed
  deriving DecidableEq, Repr

/-- A connecting socket with the link that came of it.  `stopped` is the state
in which `stopInLoop` found the socket, if it ran since the owner last called
`start` or `restart`. -/
structure Connector where
  socket : ConnectSocket
  link : LinkPhase
  stopped : Option ConnectState

inductive ConnectAction where
  | start (inLoopThread : Bool) (attempt : Attempt)
  | stop
  | restart (attempt : Attempt)
  | retryTimer (index : Nat) (attempt : Attempt)
  | runFunctor (attempt : Attempt)
  | handleWrite (fd : Int) (check : SocketCheck)
  | outside (party : Party) (action : OutsideAction)
  deriving DecidableEq, Repr

namespace Connector

def new : Connector :=
  { socket := .new, link := .absent, stopped := none }

/-- The owner's `newConnection`: its link takes the descriptor over. -/
def give (connector : Connector) (given : Option Int) : Connector :=
  match given with
  | none => connector
  | some fd =>
      { connector with
        socket := { connector.socket with
          descriptors := connector.socket.descriptors.pass .link fd }
        link := .given fd }

/-- The link is closed when it closes its descriptor. -/
def linkAfter (connector : Connector) (party : Party) :
    OutsideAction → LinkPhase
  | .closes _ => if party = .link then .closed else connector.link
  | .opens _ | .watches _ _ | .unwatches _ => connector.link

/-- The functor that runs next. -/
def nextFunctor (connector : Connector) : Option ConnectFunctor :=
  connector.socket.pendingFunctors.head?

/-- `stopped` after the next functor. -/
def stoppedAfter (connector : Connector) : Option ConnectState :=
  if connector.nextFunctor = some .stopInLoop then
    some connector.socket.connectState
  else connector.stopped

def step (connector : Connector) : ConnectAction → Checked Connector
  | .start inLoopThread attempt => do
      let socket ← connector.socket.start inLoopThread attempt
      return { connector with socket, stopped := none }
  | .stop => .ok { connector with socket := connector.socket.stop }
  | .restart attempt => do
      let socket ← connector.socket.restart attempt
      return { socket, link := .absent, stopped := none }
  | .retryTimer index attempt => do
      let socket ← connector.socket.retryTimer index attempt
      return { connector with socket }
  | .runFunctor attempt => do
      let socket ← connector.socket.runFunctor attempt
      return { connector with socket, stopped := connector.stoppedAfter }
  | .handleWrite _ check => do
      let (socket, given) ← connector.socket.handleWrite check
      return { connector with socket }.give given
  | .outside party action =>
      .ok { connector with
        socket := connector.socket.outside party action
        link := connector.linkAfter party action }

/-- The kernel has descriptors that are not in use. -/
def Fresh (connector : Connector) (attempt : Attempt) : Prop :=
  0 ≤ attempt.fd ∧ connector.socket.descriptors.holder attempt.fd = none

/-- The owner restarts the socket once its link has closed; events are those of
a descriptor that is watched for the socket. -/
def Enabled (connector : Connector) : ConnectAction → Prop
  | .start _ attempt => connector.Fresh attempt
  | .stop => True
  | .restart attempt => connector.link = .closed ∧ connector.Fresh attempt
  | .retryTimer index attempt =>
      index < connector.socket.retryTimers.length ∧ connector.Fresh attempt
  | .runFunctor attempt =>
      connector.socket.pendingFunctors ≠ [] ∧ connector.Fresh attempt
  | .handleWrite fd _ =>
      (connector.socket.poller.interest fd).map EpollEvent.ptr =
        some .connectSocket
  | .outside party action =>
      party ≠ .connectSocket ∧ connector.socket.Allows party action

def machine : Machine Connector ConnectAction Fault where
  enabled := Enabled
  step := step

/-- The attempt that a step makes, if it makes one. -/
def attempts (connector : Connector) : ConnectAction → Option Attempt
  | .start inLoopThread attempt =>
      if inLoopThread ∧ connector.socket.connectState = .Stopped then
        some attempt
      else none
  | .restart attempt => some attempt
  | .retryTimer _ attempt =>
      if connector.socket.connectState = .Stopped then some attempt else none
  | .runFunctor attempt =>
      if connector.nextFunctor = some .startInLoop ∧
          connector.socket.connectState = .Stopped then some attempt
      else none
  | .stop | .handleWrite _ _ | .outside _ _ => none

/-- No attempt of the step ends with an outcome that `connect` only logs. -/
def Survives (connector : Connector) (action : ConnectAction) : Prop :=
  ∀ attempt, connector.attempts action = some attempt →
    attempt.errno.outcome ≠ .failed

instance decidableFresh (connector : Connector) (attempt : Attempt) :
    Decidable (connector.Fresh attempt) := by
  unfold Fresh
  infer_instance

instance decidableEnabled (connector : Connector) (action : ConnectAction) :
    Decidable (machine.enabled connector action) := by
  cases action <;> unfold machine Enabled <;> infer_instance

instance decidableSurvives (connector : Connector) (action : ConnectAction) :
    Decidable (connector.Survives action) := by
  unfold Survives
  cases connector.attempts action with
  | none => exact isTrue (by simp)
  | some attempt => exact decidable_of_iff (attempt.errno.outcome ≠ .failed) (by simp)

/-- State and descriptor agree; only a connected socket has a link, which holds
one descriptor until it closes. -/
structure Settled (connector : Connector) : Prop where
  ready : connector.socket.Ready
  link : connector.link ≠ .absent →
    connector.socket.connectState = .Connected
  held : ∀ fd, connector.socket.descriptors.holder fd = some .link →
    connector.link = .given fd

variable {connector next : Connector} {action : ConnectAction}

theorem new_settled : new.Settled where
  ready := by
    refine .inr ⟨by decide, .empty, rfl, rfl, ?_⟩
    intro fd held
    cases held
  link present := absurd rfl present
  held _ held := by cases held

/-- What a step does to a settled socket: a fatal attempt closes the descriptor
and leaves the state. -/
def Outcome (connector next : Connector) (action : ConnectAction) : Prop :=
  (connector.Survives action → next.Settled) ∧
    (¬ connector.Survives action →
      next.socket.Idle ∧ next.socket.connectState = .Connecting)

theorem Settled.outcome (settled : next.Settled)
    (none : connector.attempts action = none) :
    connector.Outcome next action := by
  refine ⟨fun _ => settled, ?_⟩
  intro fatal
  refine absurd ?_ fatal
  intro attempt made
  cases none.symm.trans made

/-- An attempt from an idle socket, the outcome of which decides the step. -/
theorem outcome_of_connect {socket : ConnectSocket} {attempt : Attempt}
    (idle : socket.Idle)
    (fresh : socket.descriptors.holder attempt.fd = none)
    (unlinked : ∀ fd, socket.descriptors.holder fd ≠ some .link)
    (made : connector.attempts action = some attempt) :
    ∃ after, socket.connect attempt = .ok after ∧
      ∀ stopped, connector.Outcome
        { socket := after, link := .absent, stopped } action := by
  obtain ⟨after, connected, ready, fatal⟩ := idle.connect fresh
  refine ⟨after, connected, ?_⟩
  intro stopped
  constructor
  · intro survives
    constructor
    · exact ready (survives attempt made)
    · intro present
      exact absurd rfl present
    · intro fd held
      have leaves := ConnectSocket.connect_leaves connected
      exact absurd (leaves.holder fd .link (by decide) held) (unlinked fd)
  · intro dies
    apply fatal
    by_contra survived
    apply dies
    intro other again
    obtain rfl := Option.some.inj (made.symm.trans again)
    exact survived

theorem Settled.link_absent (settled : connector.Settled)
    (other : connector.socket.connectState ≠ .Connected) :
    connector.link = .absent := by
  by_contra present
  exact other (settled.link present)

theorem Settled.unlinked (settled : connector.Settled)
    (other : ∀ fd, connector.link ≠ .given fd) (fd : Int) :
    connector.socket.descriptors.holder fd ≠ some .link :=
  mt (settled.held fd) (other fd)

theorem Settled.idle (settled : connector.Settled)
    (other : connector.socket.connectState ≠ .Connecting) :
    connector.socket.Idle := by
  rcases settled.ready with ⟨connecting, _⟩ | ⟨_, idle⟩
  · exact absurd connecting other
  · exact idle

theorem Settled.attached (settled : connector.Settled)
    (connecting : connector.socket.connectState = .Connecting) :
    connector.socket.Attached := by
  rcases settled.ready with ⟨_, attached⟩ | ⟨other, _⟩
  · exact attached
  · exact absurd connecting other

theorem Settled.startInLoop (settled : connector.Settled)
    (timers : List Nat) (functors : List ConnectFunctor) {attempt : Attempt}
    (fresh : connector.Fresh attempt)
    (made : connector.attempts action =
      if connector.socket.connectState = .Stopped then some attempt
      else none) :
    ∃ after, { connector.socket with
        retryTimers := timers
        pendingFunctors := functors }.startInLoop attempt = .ok after ∧
      ∀ stopped, connector.Outcome
        { connector with socket := after, stopped } action := by
  by_cases stopped : connector.socket.connectState = .Stopped
  · have other : connector.socket.connectState ≠ .Connecting := by
      simp [stopped]
    have absent := settled.link_absent (by simp [stopped])
    rw [if_pos stopped] at made
    have idle : { connector.socket with
        retryTimers := timers, pendingFunctors := functors }.Idle :=
      settled.idle other
    have unlinked := settled.unlinked (by simp [absent])
    obtain ⟨after, connected, outcome⟩ :=
      outcome_of_connect idle fresh.2 unlinked made
    refine ⟨after, ?_, ?_⟩
    · exact (if_pos stopped).trans connected
    · rw [absent]
      exact outcome
  · rw [if_neg stopped] at made
    refine ⟨_, if_neg stopped, ?_⟩
    intro _
    exact Settled.outcome ⟨settled.ready, settled.link, settled.held⟩ made

theorem Settled.stopInLoop (settled : connector.Settled)
    (functors : List ConnectFunctor) :
    ∃ after, { connector.socket with
        pendingFunctors := functors }.stopInLoop = .ok after ∧
      ∀ stopped, Settled { connector with socket := after, stopped } := by
  by_cases connecting : connector.socket.connectState = .Connecting
  · have attached : { connector.socket with
        pendingFunctors := functors }.Attached := settled.attached connecting
    obtain ⟨after, done, idle, stopped⟩ := attached.stopInLoop connecting
    have absent := settled.link_absent (by simp [connecting])
    refine ⟨after, done, ?_⟩
    intro _
    constructor
    · exact .inr ⟨by simp [stopped], idle⟩
    · exact fun present => absurd absent present
    · intro fd held
      obtain ⟨leaves, _⟩ := ConnectSocket.stopInLoop_leaves done
      exact settled.held fd (leaves.holder fd .link (by decide) held)
  · refine ⟨_, ConnectSocket.stopInLoop_other connecting, ?_⟩
    intro _
    exact ⟨settled.ready, settled.link, settled.held⟩

theorem Settled.runFunctor (settled : connector.Settled) {attempt : Attempt}
    (fresh : connector.Fresh attempt) :
    ∃ next, connector.step (.runFunctor attempt) = .ok next ∧
      connector.Outcome next (.runFunctor attempt) := by
  cases functors : connector.socket.pendingFunctors with
  | nil =>
      have none : connector.attempts (.runFunctor attempt) = none := by
        simp [attempts, nextFunctor, functors]
      refine ⟨{ connector with stopped := connector.stoppedAfter }, ?_,
        Settled.outcome ⟨settled.ready, settled.link, settled.held⟩ none⟩
      simp [step, ConnectSocket.runFunctor, functors, pure, Except.pure]
  | cons functor rest =>
      cases functor with
      | startInLoop =>
          have made : connector.attempts (.runFunctor attempt) =
              if connector.socket.connectState = .Stopped then some attempt
              else none := by
            simp [attempts, nextFunctor, functors]
          obtain ⟨after, started, outcome⟩ :=
            settled.startInLoop connector.socket.retryTimers rest fresh made
          refine ⟨_, ?_, outcome connector.stoppedAfter⟩
          simp [step, ConnectSocket.runFunctor, functors, started, pure,
            Except.pure]
      | stopInLoop =>
          have none : connector.attempts (.runFunctor attempt) = none := by
            simp [attempts, nextFunctor, functors]
          obtain ⟨after, stopped, kept⟩ :=
            settled.stopInLoop rest
          refine ⟨_, ?_, (kept connector.stoppedAfter).outcome none⟩
          simp [step, ConnectSocket.runFunctor, functors, stopped, pure,
            Except.pure]

theorem Settled.handleWrite (settled : connector.Settled)
    (check : SocketCheck) (fd : Int) :
    ∃ next, connector.step (.handleWrite fd check) = .ok next ∧
      next.Settled := by
  by_cases connecting : connector.socket.connectState = .Connecting
  · have attached := settled.attached connecting
    have absent := settled.link_absent (by simp [connecting])
    have unlinked := settled.unlinked (by simp [absent])
    by_cases fails : check.Fails
    · obtain ⟨after, handled, idle, stopped⟩ :=
        attached.handleWrite_fails connecting fails
      have leaves := ConnectSocket.handleWrite_leaves handled
      refine ⟨{ connector with socket := after }, ?_, ?_⟩
      · simp [step, handled, give, pure, Except.pure]
      · constructor
        · exact .inr ⟨by simp [stopped], idle⟩
        · exact fun present => absurd absent present
        · intro other held
          have before := leaves.holder other .link (by decide) held
          exact absurd before (unlinked other)
    · obtain ⟨after, handled, held, same, connected⟩ :=
        attached.handleWrite_succeeds connecting fails
      have leaves := ConnectSocket.handleWrite_leaves handled
      refine ⟨{ connector with socket := after }.give
        (some connector.socket.handler.fd), ?_, ?_⟩
      · simp [step, handled, pure, Except.pure]
      · have idle := held.pass
        have present : after.descriptors.holder after.handler.fd ≠ none := by
          simp [held.held]
        rw [same] at idle present
        constructor
        · exact .inr ⟨by simp [give, connected], idle⟩
        · exact fun _ => connected
        · intro other linked
          have passed : write after.descriptors.holder
              connector.socket.handler.fd (some .link) other =
                some .link := by
            rw [← Handles.holder_pass present]
            exact linked
          by_cases here : other = connector.socket.handler.fd
          · rw [here]
            rfl
          · have before := leaves.holder other .link (by decide)
              ((write_other here).symm.trans passed)
            exact absurd before (unlinked other)
  · refine ⟨connector, ?_, settled⟩
    simp [step, ConnectSocket.handleWrite_other connecting, give, pure,
      Except.pure]

theorem linkAfter_other {party : Party} (other : party ≠ .link)
    (outside : OutsideAction) :
    connector.linkAfter party outside = connector.link := by
  cases outside with
  | closes fd => exact if_neg other
  | opens fd => rfl
  | watches fd events => rfl
  | unwatches fd => rfl

theorem Settled.outside (settled : connector.Settled) {party : Party}
    {outside : OutsideAction} (theirs : party ≠ .connectSocket)
    (allowed : connector.socket.Allows party outside) :
    Settled { connector with
      socket := connector.socket.outside party outside
      link := connector.linkAfter party outside } := by
  have ready := settled.ready.outside theirs allowed
  obtain ⟨_, connectState, _, _⟩ :=
    connector.socket.outside_kept party outside
  by_cases linked : party = .link
  · subst linked
    cases outside with
    | opens fd => exact absurd allowed.2.2 (by decide)
    | watches fd events => exact ⟨ready, settled.link, settled.held⟩
    | unwatches fd => exact ⟨ready, settled.link, settled.held⟩
    | closes fd =>
        have given := settled.held fd allowed.1
        refine ⟨ready, fun _ => settled.link (by simp [given]), ?_⟩
        intro other held
        have remains : write connector.socket.descriptors.holder fd none
            other = some .link := by
          rw [← Handles.holder_release]
          exact held
        by_cases here : other = fd
        · simp [here] at remains
        · have before := settled.held other
            ((write_other here).symm.trans remains)
          exact absurd (LinkPhase.given.inj (before.symm.trans given)) here
  · have same : connector.linkAfter party outside = connector.link :=
      linkAfter_other linked outside
    constructor
    · exact ready
    · intro present
      rw [same] at present
      exact connectState.trans (settled.link present)
    · intro fd held
      rw [same]
      exact settled.held fd
        ((ConnectSocket.outside_holder allowed linked).mp held)

/-- Every step that is possible completes, and keeps the agreement unless an
attempt dies. -/
theorem Settled.step (settled : connector.Settled)
    (enabled : connector.Enabled action) :
    ∃ next, connector.step action = .ok next ∧
      connector.Outcome next action := by
  cases action with
  | start inLoopThread attempt =>
      cases inLoopThread with
      | true =>
          have made : connector.attempts (.start true attempt) =
              if connector.socket.connectState = .Stopped then some attempt
              else none := by
            simp [attempts]
          obtain ⟨after, started, outcome⟩ := settled.startInLoop
            connector.socket.retryTimers connector.socket.pendingFunctors
            enabled made
          refine ⟨_, ?_, outcome none⟩
          simp [Connector.step, ConnectSocket.start, started, pure,
            Except.pure]
      | false =>
          refine ⟨_, rfl, Settled.outcome ?_ (by simp [attempts])⟩
          exact ⟨settled.ready, settled.link, settled.held⟩
  | stop =>
      refine ⟨_, rfl, Settled.outcome ?_ rfl⟩
      exact ⟨settled.ready, settled.link, settled.held⟩
  | restart attempt =>
      obtain ⟨closed, fresh⟩ := enabled
      have connected := settled.link (by simp [closed])
      have idle : { connector.socket with
          retryTimeMs := InitRetryTimeMs }.Idle :=
        settled.idle (by simp [connected])
      have unlinked := settled.unlinked (by simp [closed])
      have made : connector.attempts (.restart attempt) = some attempt := rfl
      obtain ⟨after, restarted, outcome⟩ :=
        outcome_of_connect idle fresh.2 unlinked made
      refine ⟨_, ?_, outcome none⟩
      simp [Connector.step, ConnectSocket.restart, restarted, pure,
        Except.pure]
  | retryTimer index attempt =>
      have made : connector.attempts (.retryTimer index attempt) =
          if connector.socket.connectState = .Stopped then some attempt
          else none := rfl
      obtain ⟨after, started, outcome⟩ := settled.startInLoop
        (connector.socket.retryTimers.eraseIdx index)
        connector.socket.pendingFunctors enabled.2 made
      refine ⟨_, ?_, outcome connector.stopped⟩
      simp [Connector.step, ConnectSocket.retryTimer, ConnectSocket.start,
        started, pure, Except.pure]
  | runFunctor attempt => exact settled.runFunctor enabled.2
  | handleWrite fd check =>
      obtain ⟨next, handled, kept⟩ := settled.handleWrite check fd
      exact ⟨next, handled, kept.outcome rfl⟩
  | outside party outside =>
      obtain ⟨theirs, allowed⟩ := enabled
      exact ⟨_, rfl, (settled.outside theirs allowed).outcome rfl⟩

/-- A descriptor of its own that is watched until it can be written. -/
structure Waits (socket : ConnectSocket) : Prop where
  held : socket.descriptors.holder socket.handler.fd = some .connectSocket
  known : socket.poller.fd2handler socket.handler.fd = some .connectSocket
  watched : socket.poller.interest socket.handler.fd =
    some { events := kWriteEvent, ptr := .connectSocket }

/-- The state is `Connecting` exactly while the socket waits for a descriptor of
its own, nothing that it did not hold was closed, and whatever comes next meets
no failing assert. -/
structure Agrees (connector : Connector) : Prop where
  waits : connector.socket.connectState = .Connecting ↔
    Waits connector.socket
  strays : connector.socket.descriptors.strays = []
  completes : ∀ action, connector.Enabled action →
    ∃ next, connector.step action = .ok next

theorem Settled.agrees (settled : connector.Settled) : connector.Agrees := by
  constructor
  · constructor
    · intro connecting
      have attached := settled.attached connecting
      have known := attached.mirrors.known
      have watched := attached.mirrors.watched
      rw [attached.added] at known watched
      exact ⟨attached.held, known, watched⟩
    · intro waits
      by_contra other
      exact (settled.idle other).unheld _ waits.held
  · rcases settled.ready with ⟨_, attached⟩ | ⟨_, idle⟩
    · exact attached.tidy.strays
    · exact idle.tidy.strays
  · intro action enabled
    obtain ⟨next, stepped, _⟩ := settled.step enabled
    exact ⟨next, stepped⟩

/-- The state of a connecting socket agrees with its descriptor all along a run
exactly if none of its attempts ends with a fatal or unexpected outcome. -/
theorem agrees_iff {actions : List ConnectAction} {final : Connector}
    (run : machine.Run new actions final) :
    (∀ first second middle, actions = first ++ second →
      machine.Run new first middle → Agrees middle) ↔
    (machine.restrict Survives).Run new actions final := by
  apply run.always_iff_of_restrict new_settled
  · intro connector settled
    exact settled.agrees
  · intro connector action next settled enabled survives stepped
    obtain ⟨other, result, outcome⟩ := settled.step enabled
    obtain rfl := Except.ok.inj (result.symm.trans stepped)
    exact outcome.1 survives
  · intro connector action next settled enabled stepped agrees
    obtain ⟨other, result, outcome⟩ := settled.step enabled
    obtain rfl := Except.ok.inj (result.symm.trans stepped)
    by_contra dies
    obtain ⟨idle, connecting⟩ := outcome.2 dies
    exact idle.unheld _ (agrees.waits.mp connecting).held

/-- A retry after a refused connection, a link that closes, a restart and a stop
while that attempt is pending. -/
theorem agrees_iff_restart :
    ∃ actions final, machine.Run new actions final ∧
      final.socket.connectState = .Stopped ∧
      final.socket.descriptors.released = [0, 1, 2] ∧
      ∀ first second middle, actions = first ++ second →
        machine.Run new first middle → Agrees middle := by
  have found : ((machine.restrict Survives).execute new
      [.start true ⟨5, .ECONNREFUSED⟩, .retryTimer 0 ⟨5, .EINPROGRESS⟩,
        .handleWrite 5 ⟨0, false⟩, .outside .link (.watches 5 kReadEvent),
        .outside .link (.unwatches 5), .outside .link (.closes 5),
        .outside .others (.opens 5), .restart ⟨6, .success⟩, .stop,
        .runFunctor ⟨7, .success⟩]).any
      (fun final => final.socket.connectState = .Stopped ∧
        final.socket.descriptors.released = [0, 1, 2]) = true := by
    decide +kernel
  obtain ⟨final, restricted, reached⟩ := Machine.run_of_execute found
  obtain ⟨stopped, released⟩ := of_decide_eq_true reached
  have run := restricted.of_restrict
  exact ⟨_, final, run, stopped, released, (agrees_iff run).mpr restricted⟩

/-- A firewall refuses the connection with `EACCES`: the socket stays in state
`Connecting` without a descriptor, and `stopInLoop` meets a failing assert. -/
theorem connecting_without_descriptor :
    ∃ final, machine.Run new [.start true ⟨5, .EACCES⟩, .stop] final ∧
      final.socket.connectState = .Connecting ∧
      final.socket.descriptors.holder final.socket.handler.fd = none ∧
      ¬ Agrees final ∧
      final.step (.runFunctor ⟨5, .success⟩) = .error .removeHandlerFind := by
  have found : (machine.execute new [.start true ⟨5, .EACCES⟩, .stop]).any
      (fun final => final.socket.connectState = .Connecting ∧
        final.socket.descriptors.holder final.socket.handler.fd = none ∧
        (match final.step (.runFunctor ⟨5, .success⟩) with
          | .error .removeHandlerFind => true
          | _ => false) = true) = true := by
    decide +kernel
  obtain ⟨final, run, reached⟩ := Machine.run_of_execute found
  obtain ⟨connecting, closed, faults⟩ := of_decide_eq_true reached
  refine ⟨final, run, connecting, closed, ?_, ?_⟩
  · intro agrees
    cases closed.symm.trans (agrees.waits.mp connecting).held
  · split at faults
    · next fault => exact fault
    · cases faults

end Connector

end Muduo
