import Muduo.Net.ClientRuns

/-!
# Clients that connect again

`connect` only does something while the connecting socket is `Stopped`.  The
socket is `Connected` from the first link on, and it learns of the end of a link
only when `delConnection` restarts it.  A user may keep a copy of
`tcpLinkSPtr_`; such a link is closed, but not destroyed.
-/

namespace Muduo

open Library

inductive ReconnectAction where
  | client (action : ClientAction)
  | queueConnect
  | keptCloses (attempt : Attempt)
  deriving DecidableEq, Repr

namespace TcpClient

/-- `connect` in another thread, which leaves `startInLoop` to the loop. -/
def queueConnect (client : TcpClient) : TcpClient :=
  let socket := client.connectSocket
  { client with
    connectFlag := true
    connectSocket := { socket with
      pendingFunctors := socket.pendingFunctors ++ [.startInLoop] } }

/-- `LinkedSocket::handleClose` of a link that somebody keeps a copy of. -/
def closeKept (client : TcpClient) (link : TcpLink) (attempt : Attempt) :
    Checked TcpClient := do
  let (client, handler) ← client.startClose link
  let (client, _) ← client.delConnection handler attempt
  return client

/-- The steps of a client, some of whose links are kept. -/
def reconnects : Machine TcpClient ReconnectAction Fault where
  enabled client action := client.destroyed = false ∧
    match action with
    | .client action => client.Enabled action
    | .queueConnect => True
    | .keptCloses attempt => client.tcpLink.isSome = true ∧ client.Fresh attempt
  step client
    | .client action => client.step action
    | .queueConnect => .ok client.queueConnect
    | .keptCloses attempt =>
        client.ofLink fun link => client.closeKept link attempt

/-- `delConnection` was called for the last link, and let go of it. -/
def Reported (client : TcpClient) : Prop :=
  client.tcpLink = none ∧ client.nextLinkId ≠ 1

/-- `connect` in the loop thread calls sockets::connect.  The state becomes
`Connecting`, and remains so unless `retry` is called on the spot. -/
def Starts (client : TcpClient) (attempt : Attempt) : Prop :=
  ∃ next, client.connect attempt = .ok next ∧
    next.connectSocket.trace =
      client.connectSocket.trace ++ [.connect attempt.fd] ∧
    next.connectSocket.connectState =
      if attempt.errno.outcome = .retried then .Stopped else .Connecting

/-- Without a link and without an attempt in flight a client that had a link
connects when it is told to. -/
def ConnectsAgain (client : TcpClient) : Prop :=
  client.destroyed = false → client.Reported → ¬ client.Pending →
    ∀ attempt, client.Fresh attempt → client.Starts attempt

/-- An attempt that is made after a link was reported does not fail for good. -/
def Tolerates (client : TcpClient) (attempt : Attempt) : Prop :=
  client.connectSocket.connectState = .Stopped → client.Reported →
    attempt.errno.outcome ≠ .failed

/-- A link is closed only while the client reconnects by itself, and no attempt
made since the first link was reported fails for good. -/
def Recovers (client : TcpClient) : ReconnectAction → Prop
  | .keptCloses attempt =>
      (client.retryFlag = true ∧ client.connectFlag = true) ∧
        attempt.errno.outcome ≠ .failed
  | .client (.connect attempt) => client.Tolerates attempt
  | .client (.retryTimer _ attempt) => client.Tolerates attempt
  | .client (.runFunctor attempt) =>
      client.connectSocket.pendingFunctors.head? = some .startInLoop →
        client.Tolerates attempt
  | .client .stop | .client .disconnect | .client .enableRetry
  | .client (.handleWrite _ _) | .client (.linkOutput _)
  | .client (.linkCloses _) | .client .destroy | .client (.outside _)
  | .queueConnect => True

end TcpClient

/-- What the connecting socket of a client is, so that `connect` starts an
attempt when it has to. -/
inductive Responds (socket : ConnectSocket) : Option TcpLink → Nat → Prop where
  | linked {link : TcpLink} {linkId : Nat} : Joined socket link →
      linkId ≠ 1 → Responds socket (some link) linkId
  | waiting {linkId : Nat} : socket.Attached →
      socket.connectState = .Connecting → Responds socket none linkId
  | stopped {linkId : Nat} : socket.Idle → socket.connectState = .Stopped →
      Responds socket none linkId
  | failed : socket.Idle → socket.connectState = .Connecting →
      Responds socket none 1

variable {socket : ConnectSocket} {tcpLink : Option TcpLink} {linkId : Nat}
variable {attempt : Attempt}

namespace Responds

theorem functors (responds : Responds socket tcpLink linkId)
    {timers : List Nat} {functors : List ConnectFunctor} :
    Responds { socket with
      retryTimers := timers, pendingFunctors := functors } tcpLink linkId := by
  cases responds with
  | linked joined later => exact .linked joined.functors later
  | waiting attached connecting => exact .waiting attached connecting
  | stopped idle stopped => exact .stopped idle stopped
  | failed idle connecting => exact .failed idle connecting

theorem shutdown (responds : Responds socket tcpLink linkId) :
    Responds socket (tcpLink.map TcpLink.shutdown) linkId := by
  cases responds with
  | linked joined later => exact .linked joined.shutdown later
  | waiting attached connecting => exact .waiting attached connecting
  | stopped idle stopped => exact .stopped idle stopped
  | failed idle connecting => exact .failed idle connecting

theorem outside (responds : Responds socket tcpLink linkId)
    {action : OutsideAction} (allowed : socket.Allows .others action) :
    Responds (socket.outside .others action) tcpLink linkId := by
  obtain ⟨_, state, _, _⟩ := socket.outside_kept .others action
  cases responds with
  | linked joined later => exact .linked (joined.outside allowed) later
  | waiting attached connecting =>
      exact .waiting (attached.outside (by decide) allowed)
        (state.trans connecting)
  | stopped idle stopped =>
      exact .stopped (idle.outside (by decide) allowed) (state.trans stopped)
  | failed idle connecting =>
      exact .failed (idle.outside (by decide) allowed)
        (state.trans connecting)

theorem idle_of_stopped (responds : Responds socket tcpLink linkId)
    (stopped : socket.connectState = .Stopped) :
    socket.Idle ∧ tcpLink = none := by
  cases responds with
  | linked joined _ => cases stopped.symm.trans joined.connected
  | waiting _ connecting => cases stopped.symm.trans connecting
  | stopped idle _ => exact ⟨idle, rfl⟩
  | failed _ connecting => cases stopped.symm.trans connecting

theorem connect (idle : socket.Idle)
    (fresh : socket.descriptors.holder attempt.fd = none)
    (tolerable : linkId ≠ 1 → attempt.errno.outcome ≠ .failed) :
    ∃ after, socket.connect attempt = .ok after ∧
      Responds after none linkId := by
  cases outcome : attempt.errno.outcome with
  | pending =>
      obtain ⟨after, connected, attached, connecting⟩ :=
        idle.connect_pending fresh outcome
      exact ⟨after, connected, .waiting attached connecting⟩
  | retried =>
      obtain ⟨after, connected, idle, stopped⟩ :=
        idle.connect_retried fresh outcome
      exact ⟨after, connected, .stopped idle stopped⟩
  | failed =>
      obtain ⟨after, connected, idle, connecting⟩ :=
        idle.connect_failed fresh outcome
      obtain rfl : linkId = 1 :=
        by_contra fun later => tolerable later outcome
      exact ⟨after, connected, .failed idle connecting⟩

theorem startInLoop (responds : Responds socket tcpLink linkId)
    (fresh : socket.descriptors.holder attempt.fd = none)
    (tolerable : socket.connectState = .Stopped → tcpLink = none →
      linkId ≠ 1 → attempt.errno.outcome ≠ .failed) :
    ∃ after, socket.startInLoop attempt = .ok after ∧
      Responds after tcpLink linkId := by
  by_cases stopped : socket.connectState = .Stopped
  · obtain ⟨idle, rfl⟩ := responds.idle_of_stopped stopped
    rw [ConnectSocket.startInLoop, if_pos stopped]
    exact connect idle fresh (tolerable stopped rfl)
  · exact ⟨socket, if_neg stopped, responds⟩

theorem stopInLoop (responds : Responds socket tcpLink linkId)
    {after : ConnectSocket} (done : socket.stopInLoop = .ok after) :
    Responds after tcpLink linkId := by
  by_cases connecting : socket.connectState = .Connecting
  · cases responds with
    | linked joined _ => cases connecting.symm.trans joined.connected
    | stopped _ stopped => cases connecting.symm.trans stopped
    | waiting attached _ =>
        obtain ⟨next, result, idle, stopped⟩ := attached.stopInLoop connecting
        obtain rfl := Except.ok.inj (result.symm.trans done)
        exact .stopped idle stopped
    | failed idle _ =>
        have silent : { socket with connectState := .Stopped }.Idle := idle
        rw [ConnectSocket.stopInLoop, if_pos connecting] at done
        have removed : Unregistered
            { socket with connectState := .Stopped }.deregister :=
          silent.deregister
        exact ((removed.bind _).not_ok done).elim
  · obtain rfl := Except.ok.inj
      ((ConnectSocket.stopInLoop_other connecting).symm.trans done)
    exact responds

theorem waits (responds : Responds socket tcpLink linkId) {fd : Int}
    (event : (socket.poller.interest fd).map EpollEvent.ptr =
      some .connectSocket) :
    socket.Attached ∧ socket.connectState = .Connecting ∧ tcpLink = none := by
  have unwatched : socket.Idle → False := by
    intro idle
    obtain ⟨entry, found, ours⟩ := Option.map_eq_some_iff.mp event
    have known := idle.tidy.watched fd entry found
    rw [ours] at known
    exact idle.unknown fd known
  cases responds with
  | linked joined _ => exact (unwatched joined.idle).elim
  | waiting attached connecting => exact ⟨attached, connecting, rfl⟩
  | stopped idle _ => exact (unwatched idle).elim
  | failed idle _ => exact (unwatched idle).elim

end Responds

namespace TcpClient

variable {client next : TcpClient} {action : ReconnectAction}
variable {link : TcpLink}

/-- What is known of every client before its end. -/
def Answers (client : TcpClient) : Prop :=
  client.destroyed = false →
    0 < client.nextLinkId ∧
      Responds client.connectSocket client.tcpLink client.nextLinkId

theorem new_answers : new.Answers := by
  intro _
  refine ⟨by decide, .stopped ⟨.empty, rfl, rfl, ?_⟩ rfl⟩
  intro fd held
  cases held

/-- `connect` does nothing unless the socket is stopped. -/
theorem Starts.stopped (starts : client.Starts attempt) :
    client.connectSocket.connectState = .Stopped := by
  by_contra running
  obtain ⟨next, connected, trace, _⟩ := starts
  have still : client.connect attempt = .ok { client with
      connectFlag := true } := by
    have nothing : client.connectSocket.start true attempt =
        .ok client.connectSocket := if_neg running
    exact congrArg (· >>= _) nothing
  obtain rfl := Except.ok.inj (still.symm.trans connected)
  simp at trace

theorem starts_of_idle (idle : client.connectSocket.Idle)
    (stopped : client.connectSocket.connectState = .Stopped)
    (fresh : client.Fresh attempt) : client.Starts attempt := by
  obtain ⟨after, connected, _, _⟩ := idle.connect fresh.2
  have begins : client.connectSocket.start true attempt = .ok after :=
    (if_pos stopped).trans connected
  have starts : client.connect attempt =
      .ok { client with connectSocket := after, connectFlag := true } :=
    congrArg (· >>= _) begins
  exact ⟨_, starts, (ConnectSocket.connect_leaves connected).trace,
    ConnectSocket.connect_state connected⟩

theorem Answers.connectsAgain (answers : client.Answers) :
    client.ConnectsAgain := by
  intro alive reported settled attempt fresh
  obtain ⟨gone, later⟩ := reported
  obtain ⟨_, responds⟩ := answers alive
  rw [gone] at responds
  generalize number : client.nextLinkId = linkId at responds
  cases responds with
  | waiting attached connecting =>
      exact absurd ⟨connecting, attached.added⟩ settled
  | stopped idle stopped => exact starts_of_idle idle stopped fresh
  | failed _ _ => exact absurd number later

theorem closeKept_eq (joined : Joined client.connectSocket link) :
    client.closeKept link attempt =
      if client.retryFlag ∧ client.connectFlag then
        ((client.reported link.handler).connectSocket.restart attempt).map
          fun connectSocket =>
            { client.reported link.handler with connectSocket }
      else .ok (client.reported link.handler) := by
  simp only [closeKept, startClose_eq joined, ok_bind, delConnection_eq]
  by_cases retries : client.retryFlag ∧ client.connectFlag
  · rw [if_pos retries, if_pos retries]
    cases (client.reported link.handler).connectSocket.restart attempt with
    | error fault => rfl
    | ok connectSocket => rfl
  · rw [if_neg retries, if_neg retries]
    rfl

theorem ofSocket_eq {outcome : Checked ConnectSocket}
    (stepped : client.ofSocket outcome = .ok next) :
    ∃ after, outcome = .ok after ∧
      next = { client with connectSocket := after } := by
  obtain ⟨after, result, same⟩ := bind_eq_ok stepped
  exact ⟨after, result, (Except.ok.inj same).symm⟩

theorem handleWrite_answers {check : SocketCheck} {fd : Int}
    (responds : Responds client.connectSocket client.tcpLink client.nextLinkId)
    (numbered : 0 < client.nextLinkId)
    (event : (client.connectSocket.poller.interest fd).map EpollEvent.ptr =
      some .connectSocket)
    (handled : client.handleWrite check = .ok next) : next.Answers := by
  obtain ⟨attached, connecting, gone⟩ := responds.waits event
  by_cases fails : check.Fails
  · obtain ⟨after, written, idle, stopped⟩ :=
      attached.handleWrite_fails connecting fails
    have done : client.handleWrite check =
        .ok { client with connectSocket := after } := by
      simp [handleWrite, written, pure, Except.pure]
    obtain rfl := Except.ok.inj (done.symm.trans handled)
    intro _
    refine ⟨numbered, ?_⟩
    rw [gone]
    exact .stopped idle stopped
  · obtain ⟨after, written, held, same, connected⟩ :=
      attached.handleWrite_succeeds connecting fails
    let given : TcpClient := { client with connectSocket := after }
    have made : given.newConnection after.handler.fd =
        .ok (given.withLink after.handler.fd) := newConnection_eq held
    have done : client.handleWrite check =
        .ok (given.withLink after.handler.fd) := by
      rw [same] at made ⊢
      simpa [handleWrite, written] using made
    obtain rfl := Except.ok.inj (done.symm.trans handled)
    intro _
    have later : client.nextLinkId + 1 ≠ 1 := by omega
    have joined : Joined (given.withLink after.handler.fd).connectSocket
        (newLink after.handler.fd) := withLink_joined held connected
    exact ⟨Nat.succ_pos _, .linked joined later⟩

theorem destroy_destroyed (done : client.destroy = .ok next) :
    next.destroyed = true := by
  have ends (freed : TcpClient) (rest : (do
      let connectSocket ← freed.connectSocket.deregister
      return { freed with
        connectSocket := connectSocket.close
        destroyed := true }) = .ok next) : next.destroyed = true := by
    obtain ⟨socket, _, result⟩ := bind_eq_ok rest
    obtain rfl := Except.ok.inj result
    rfl
  unfold destroy at done
  split at done
  · exact ends client done
  · obtain ⟨freed, _, rest⟩ := bind_eq_ok done
    exact ends freed rest

theorem Answers.clientStep {action : ClientAction} (answers : client.Answers)
    (alive : client.destroyed = false) (enabled : client.Enabled action)
    (recovers : client.Recovers (.client action))
    (stepped : client.step action = .ok next) : next.Answers := by
  obtain ⟨numbered, responds⟩ := answers alive
  cases action with
  | connect attempt =>
      obtain ⟨after, started, kept⟩ := responds.startInLoop enabled.2
        (fun stopped gone later => recovers stopped ⟨gone, later⟩)
      obtain ⟨other, again, result⟩ := bind_eq_ok stepped
      obtain rfl : after = other := Except.ok.inj (started.symm.trans again)
      obtain rfl := Except.ok.inj result
      exact fun _ => ⟨numbered, kept⟩
  | stop =>
      obtain rfl := Except.ok.inj stepped
      exact fun _ => ⟨numbered, responds.functors⟩
  | disconnect =>
      obtain rfl := Except.ok.inj stepped
      exact fun _ => ⟨numbered, responds.shutdown⟩
  | enableRetry =>
      obtain rfl := Except.ok.inj stepped
      exact fun _ => ⟨numbered, responds⟩
  | retryTimer index attempt =>
      obtain ⟨after, result, rfl⟩ := ofSocket_eq stepped
      have waiting : Responds { client.connectSocket with
          retryTimers := client.connectSocket.retryTimers.eraseIdx index }
          client.tcpLink client.nextLinkId := responds.functors
      obtain ⟨other, started, kept⟩ := waiting.startInLoop enabled.2.2
        (fun stopped gone later => recovers stopped ⟨gone, later⟩)
      obtain rfl : other = after := Except.ok.inj (started.symm.trans result)
      exact fun _ => ⟨numbered, kept⟩
  | runFunctor attempt =>
      obtain ⟨after, result, rfl⟩ := ofSocket_eq stepped
      cases functors : client.connectSocket.pendingFunctors with
      | nil => exact absurd functors enabled.1
      | cons functor rest =>
          have waiting : Responds { client.connectSocket with
              pendingFunctors := rest } client.tcpLink client.nextLinkId :=
            responds.functors
          simp only [ConnectSocket.runFunctor, functors] at result
          cases functor with
          | startInLoop =>
              have tolerates := recovers (by simp [functors])
              obtain ⟨other, started, kept⟩ := waiting.startInLoop enabled.2.2
                (fun stopped gone later => tolerates stopped ⟨gone, later⟩)
              obtain rfl : other = after :=
                Except.ok.inj (started.symm.trans result)
              exact fun _ => ⟨numbered, kept⟩
          | stopInLoop => exact fun _ => ⟨numbered, waiting.stopInLoop result⟩
  | handleWrite fd check =>
      exact handleWrite_answers responds numbered enabled stepped
  | linkOutput writing =>
      obtain ⟨link, shape⟩ := Option.isSome_iff_exists.mp enabled
      rw [shape] at responds
      cases responds with
      | linked joined later =>
          obtain ⟨watched, _, kept⟩ := watchOutput_joins joined writing
          simp only [TcpClient.step, ofLink, shape] at stepped
          obtain rfl := Except.ok.inj (watched.symm.trans stepped)
          exact fun _ => ⟨numbered, .linked kept later⟩
  | linkCloses attempt =>
      obtain ⟨link, shape⟩ := Option.isSome_iff_exists.mp enabled.1
      rw [shape] at responds
      cases responds with
      | linked joined _ =>
          simp only [TcpClient.step, ofLink, shape] at stepped
          have closes := handleClose_unregistered joined enabled.2
          exact (closes.not_ok stepped).elim
  | destroy =>
      intro still
      cases still.symm.trans (destroy_destroyed stepped)
  | outside action =>
      obtain ⟨after, result, rfl⟩ := ofSocket_eq stepped
      obtain rfl := Except.ok.inj result
      exact fun _ => ⟨numbered, responds.outside enabled⟩

theorem Answers.closeKept (answers : client.Answers)
    (alive : client.destroyed = false) (shape : client.tcpLink = some link)
    (fresh : client.Fresh attempt)
    (recovers : client.Recovers (.keptCloses attempt))
    (closed : client.closeKept link attempt = .ok next) : next.Answers := by
  obtain ⟨numbered, responds⟩ := answers alive
  obtain ⟨retries, tolerable⟩ := recovers
  rw [shape] at responds
  cases responds with
  | linked joined _ =>
      rw [closeKept_eq joined, if_pos retries] at closed
      obtain ⟨after, result, rfl⟩ := exists_of_map_eq_ok closed
      let restarted : ConnectSocket :=
        { (client.reported link.handler).connectSocket with
          retryTimeMs := InitRetryTimeMs }
      have idle : restarted.Idle := reported_idle joined.idle joined.held
      obtain ⟨other, connected, kept⟩ :=
        Responds.connect idle fresh.2 (fun _ => tolerable)
      obtain rfl : other = after := Except.ok.inj (connected.symm.trans result)
      exact fun _ => ⟨numbered, kept⟩

theorem Answers.step (answers : client.Answers)
    (enabled : reconnects.enabled client action)
    (recovers : client.Recovers action)
    (stepped : reconnects.step client action = .ok next) : next.Answers := by
  obtain ⟨alive, enabled⟩ := enabled
  cases action with
  | client action => exact answers.clientStep alive enabled recovers stepped
  | queueConnect =>
      obtain rfl := Except.ok.inj stepped
      obtain ⟨numbered, responds⟩ := answers alive
      exact fun _ => ⟨numbered, responds.functors⟩
  | keptCloses attempt =>
      obtain ⟨link, shape⟩ := Option.isSome_iff_exists.mp enabled.1
      simp only [reconnects, ofLink, shape] at stepped
      exact answers.closeKept alive shape enabled.2 recovers stepped

theorem ConnectsAgain.stopped (again : client.ConnectsAgain)
    (alive : client.destroyed = false) (reported : client.Reported)
    (fresh : client.Fresh attempt) (idle : client.connectSocket.Idle) :
    client.connectSocket.connectState = .Stopped := by
  have settled : ¬ client.Pending := by
    intro pending
    cases idle.new.symm.trans pending.2
  exact (again alive reported settled attempt fresh).stopped

/-- The number of a descriptor that an attempt opened and closed is free. -/
theorem fresh_of_idle {after : ConnectSocket} {events : List ConnectEvent}
    (leaves : socket.Leaves after events) (idle : after.Idle) {fd : Int}
    (fresh : socket.descriptors.holder fd = none) :
    after.descriptors.holder fd = none := by
  cases held : after.descriptors.holder fd with
  | none => rfl
  | some party =>
      by_cases ours : party = .connectSocket
      · exact absurd (ours ▸ held) (idle.unheld fd)
      · cases fresh.symm.trans (leaves.holder fd party ours held)

theorem tolerable_of_again (next : TcpClient) (idle : socket.Idle)
    (fresh : 0 ≤ attempt.fd ∧ socket.descriptors.holder attempt.fd = none)
    (connected : socket.connect attempt = .ok next.connectSocket)
    (alive : next.destroyed = false) (reported : next.Reported)
    (again : next.ConnectsAgain) : attempt.errno.outcome ≠ .failed := by
  intro failed
  obtain ⟨after, result, idle, connecting⟩ := idle.connect_failed fresh.2 failed
  obtain rfl := Except.ok.inj (result.symm.trans connected)
  have leaves := ConnectSocket.connect_leaves connected
  have free : next.Fresh attempt := ⟨fresh.1, fresh_of_idle leaves idle fresh.2⟩
  have stopped := again.stopped alive reported free idle
  cases stopped.symm.trans connecting

theorem tolerates_of_again (next : TcpClient)
    (responds : Responds socket next.tcpLink next.nextLinkId)
    (fresh : 0 ≤ attempt.fd ∧ socket.descriptors.holder attempt.fd = none)
    (started : socket.startInLoop attempt = .ok next.connectSocket)
    (alive : next.destroyed = false) (again : next.ConnectsAgain)
    (stopped : socket.connectState = .Stopped) (reported : next.Reported) :
    attempt.errno.outcome ≠ .failed := by
  obtain ⟨idle, _⟩ := responds.idle_of_stopped stopped
  rw [ConnectSocket.startInLoop, if_pos stopped] at started
  exact tolerable_of_again next idle fresh started alive reported again

theorem Answers.recovers_client {action : ClientAction}
    (answers : client.Answers) (alive : client.destroyed = false)
    (enabled : client.Enabled action) (stepped : client.step action = .ok next)
    (again : next.ConnectsAgain) : client.Recovers (.client action) := by
  obtain ⟨_, responds⟩ := answers alive
  cases action with
  | connect attempt =>
      intro stopped reported
      obtain ⟨after, started, result⟩ := bind_eq_ok stepped
      obtain rfl := Except.ok.inj result
      have begun : client.connectSocket.startInLoop attempt = .ok after :=
        started
      let told : TcpClient := { client with
        connectSocket := after, connectFlag := true }
      exact tolerates_of_again told responds enabled begun alive again stopped
        reported
  | retryTimer index attempt =>
      intro stopped reported
      obtain ⟨after, started, rfl⟩ := ofSocket_eq stepped
      have waiting : Responds { client.connectSocket with
          retryTimers := client.connectSocket.retryTimers.eraseIdx index }
          client.tcpLink client.nextLinkId := responds.functors
      let told : TcpClient := { client with connectSocket := after }
      exact tolerates_of_again told waiting enabled.2 started alive again
        stopped reported
  | runFunctor attempt =>
      intro first stopped reported
      obtain ⟨after, ran, rfl⟩ := ofSocket_eq stepped
      obtain ⟨rest, functors⟩ := List.head?_eq_some_iff.mp first
      have waiting : Responds { client.connectSocket with
          pendingFunctors := rest } client.tcpLink client.nextLinkId :=
        responds.functors
      simp only [ConnectSocket.runFunctor, functors] at ran
      let told : TcpClient := { client with connectSocket := after }
      exact tolerates_of_again told waiting enabled.2 ran alive again stopped
        reported
  | stop => exact trivial
  | disconnect => exact trivial
  | enableRetry => exact trivial
  | handleWrite fd check => exact trivial
  | linkOutput writing => exact trivial
  | linkCloses attempt => exact trivial
  | destroy => exact trivial
  | outside action => exact trivial

theorem Answers.recovers_closeKept (answers : client.Answers)
    (alive : client.destroyed = false) (shape : client.tcpLink = some link)
    (fresh : client.Fresh attempt)
    (closed : client.closeKept link attempt = .ok next)
    (again : next.ConnectsAgain) :
    client.Recovers (.keptCloses attempt) := by
  obtain ⟨_, responds⟩ := answers alive
  rw [shape] at responds
  cases responds with
  | linked joined later =>
      have idle : (client.reported link.handler).connectSocket.Idle :=
        reported_idle joined.idle joined.held
      have reported : (client.reported link.handler).Reported := ⟨rfl, later⟩
      rw [closeKept_eq joined] at closed
      by_cases retries : client.retryFlag ∧ client.connectFlag
      · rw [if_pos retries] at closed
        obtain ⟨after, connected, rfl⟩ := exists_of_map_eq_ok closed
        let restarted : ConnectSocket :=
          { (client.reported link.handler).connectSocket with
            retryTimeMs := InitRetryTimeMs }
        have ready : restarted.Idle := idle
        let told : TcpClient := { client.reported link.handler with
          connectSocket := after }
        exact ⟨retries, tolerable_of_again told ready fresh connected alive
          reported again⟩
      · -- The state remains what it was with the link.
        rw [if_neg retries] at closed
        obtain rfl := Except.ok.inj closed
        have stopped := again.stopped alive reported fresh idle
        cases stopped.symm.trans joined.connected

/-- A step after which `connect` works meets the condition. -/
theorem Answers.recovers (answers : client.Answers)
    (enabled : reconnects.enabled client action)
    (stepped : reconnects.step client action = .ok next)
    (again : next.ConnectsAgain) : client.Recovers action := by
  obtain ⟨alive, enabled⟩ := enabled
  cases action with
  | client action => exact answers.recovers_client alive enabled stepped again
  | queueConnect => exact trivial
  | keptCloses attempt =>
      obtain ⟨link, shape⟩ := Option.isSome_iff_exists.mp enabled.1
      simp only [reconnects, ofLink, shape] at stepped
      exact answers.recovers_closeKept alive shape enabled.2 stepped again

instance decidableFresh (client : TcpClient) (attempt : Attempt) :
    Decidable (client.Fresh attempt) :=
  inferInstanceAs (Decidable (0 ≤ attempt.fd ∧
    client.connectSocket.descriptors.holder attempt.fd = none))

instance decidableReconnects (client : TcpClient) :
    (action : ReconnectAction) → Decidable (reconnects.enabled client action)
  | .client action =>
      inferInstanceAs (Decidable (machine.enabled client action))
  | .queueConnect =>
      inferInstanceAs (Decidable (client.destroyed = false ∧ True))
  | .keptCloses attempt =>
      inferInstanceAs (Decidable (client.destroyed = false ∧
        client.tcpLink.isSome = true ∧ client.Fresh attempt))

instance decidableTolerates (client : TcpClient) (attempt : Attempt) :
    Decidable (client.Tolerates attempt) :=
  decidable_of_iff (client.connectSocket.connectState = .Stopped →
      client.tcpLink.isNone = true ∧ client.nextLinkId ≠ 1 →
        attempt.errno.outcome ≠ .failed) (by
    rw [Option.isNone_iff_eq_none]
    rfl)

instance decidableRecovers (client : TcpClient) :
    (action : ReconnectAction) → Decidable (client.Recovers action)
  | .keptCloses attempt =>
      inferInstanceAs (Decidable
        ((client.retryFlag = true ∧ client.connectFlag = true) ∧
          attempt.errno.outcome ≠ .failed))
  | .client (.connect attempt) =>
      inferInstanceAs (Decidable (client.Tolerates attempt))
  | .client (.retryTimer _ attempt) =>
      inferInstanceAs (Decidable (client.Tolerates attempt))
  | .client (.runFunctor attempt) =>
      inferInstanceAs (Decidable
        (client.connectSocket.pendingFunctors.head? = some .startInLoop →
          client.Tolerates attempt))
  | .client .stop | .client .disconnect | .client .enableRetry
  | .client (.handleWrite _ _) | .client (.linkOutput _)
  | .client (.linkCloses _) | .client .destroy | .client (.outside _)
  | .queueConnect => inferInstanceAs (Decidable True)

/-- In all states of a run a client that has lost its link connects when it is
told to exactly if every link was closed while the client reconnects by itself,
and no attempt since the first link was reported failed for good. -/
theorem connectsAgain_iff {actions : List ReconnectAction}
    (run : reconnects.Run new actions client) :
    (∀ first second middle, actions = first ++ second →
      reconnects.Run new first middle → middle.ConnectsAgain) ↔
    (reconnects.restrict Recovers).Run new actions client := by
  apply run.always_iff_of_restrict new_answers
  · intro state answers
    exact answers.connectsAgain
  · intro state action next answers enabled recovers stepped
    exact answers.step enabled recovers stepped
  · intro state action next answers enabled stepped again
    exact answers.recovers enabled stepped again

/-- The client reconnects by itself; the attempt is refused, and `connect` makes
the next one before the retry timer is due. -/
theorem connectsAgain_iff_retried :
    ∃ actions client, reconnects.Run new actions client ∧
      client.Reported ∧ ¬ client.Pending ∧
      client.Starts ⟨7, .EINPROGRESS⟩ := by
  have found : ((reconnects.restrict Recovers).execute new
      [.client .enableRetry, .client (.connect ⟨5, .EINPROGRESS⟩),
        .client (.handleWrite 5 ⟨0, false⟩), .client .disconnect,
        .client (.connect ⟨6, .success⟩),
        .keptCloses ⟨6, .ECONNREFUSED⟩]).any
      (fun client => client.destroyed = false ∧
        (client.tcpLink.isNone = true ∧ client.nextLinkId ≠ 1) ∧
        client.connectSocket.connectState ≠ .Connecting ∧
        client.Fresh ⟨7, .EINPROGRESS⟩) = true := by
    decide +kernel
  obtain ⟨client, restricted, reached⟩ := Machine.run_of_execute found
  obtain ⟨alive, ⟨gone, later⟩, settled, fresh⟩ := of_decide_eq_true reached
  have run := restricted.of_restrict
  have reported : client.Reported := ⟨Option.isNone_iff_eq_none.mp gone, later⟩
  have idle : ¬ client.Pending := fun pending => settled pending.1
  have always := (connectsAgain_iff run).mpr restricted
  have again := always _ [] client (List.append_nil _).symm run
  exact ⟨_, client, run, reported, idle, again alive reported idle _ fresh⟩

/-- The peer closes the first link of a client without `enableRetry`. -/
theorem closed_link_not_replaced :
    ∃ client, reconnects.Run new
        [.client (.connect ⟨5, .EINPROGRESS⟩),
          .client (.handleWrite 5 ⟨0, false⟩),
          .keptCloses ⟨6, .success⟩] client ∧
      client.destroyed = false ∧ client.Reported ∧ ¬ client.Pending ∧
      client.Fresh ⟨6, .success⟩ ∧
      client.connectSocket.connectState = .Connected ∧
      ¬ client.Starts ⟨6, .success⟩ := by
  have found : (reconnects.execute new
      [.client (.connect ⟨5, .EINPROGRESS⟩),
        .client (.handleWrite 5 ⟨0, false⟩),
        .keptCloses ⟨6, .success⟩]).any
      (fun client => client.destroyed = false ∧
        (client.tcpLink.isNone = true ∧ client.nextLinkId ≠ 1) ∧
        client.connectSocket.connectState = .Connected ∧
        client.Fresh ⟨6, .success⟩) = true := by
    decide +kernel
  obtain ⟨client, run, reached⟩ := Machine.run_of_execute found
  obtain ⟨alive, ⟨gone, later⟩, connected, fresh⟩ := of_decide_eq_true reached
  have reported : client.Reported := ⟨Option.isNone_iff_eq_none.mp gone, later⟩
  refine ⟨client, run, alive, reported, ?_, fresh, connected, ?_⟩
  · intro pending
    cases connected.symm.trans pending.1
  · intro starts
    cases connected.symm.trans starts.stopped

end TcpClient

end Muduo
