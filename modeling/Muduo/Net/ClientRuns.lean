import Muduo.Library.Machine
import Muduo.Net.TcpClient

/-!
# Runs of a client

The connecting socket hands its descriptor to the link, and both remove their
handler and close their descriptor when they are destroyed.  That only works for
the one that still has a handler in the poller: for a link that was not closed,
and for a connecting socket whose attempt is pending.
-/

namespace Muduo

open Library

inductive ClientAction where
  | connect (attempt : Attempt)
  | stop
  | disconnect
  | enableRetry
  | retryTimer (index : Nat) (attempt : Attempt)
  | runFunctor (attempt : Attempt)
  | handleWrite (fd : Int) (check : SocketCheck)
  | linkOutput (writing : Bool)
  | linkCloses (attempt : Attempt)
  | destroy
  | outside (action : OutsideAction)
  deriving DecidableEq, Repr

namespace TcpClient

/-- A step of the connecting socket alone. -/
def ofSocket (client : TcpClient) (connectSocket : Checked ConnectSocket) :
    Checked TcpClient := do
  let connectSocket ← connectSocket
  return { client with connectSocket }

/-- A step of the link, if there is one. -/
def ofLink (client : TcpClient) (step : TcpLink → Checked TcpClient) :
    Checked TcpClient :=
  match client.tcpLink with
  | none => .ok client
  | some link => step link

def step (client : TcpClient) : ClientAction → Checked TcpClient
  | .connect attempt => client.connect attempt
  | .stop => .ok client.stop
  | .disconnect => .ok client.disconnect
  | .enableRetry => .ok client.enableRetry
  | .retryTimer index attempt =>
      client.ofSocket (client.connectSocket.retryTimer index attempt)
  | .runFunctor attempt =>
      client.ofSocket (client.connectSocket.runFunctor attempt)
  | .handleWrite _ check => client.handleWrite check
  | .linkOutput writing =>
      client.ofLink fun link => client.watchOutput link writing
  | .linkCloses attempt =>
      client.ofLink fun link => client.handleClose link attempt
  | .destroy => client.destroy
  | .outside action =>
      client.ofSocket (.ok (client.connectSocket.outside .others action))

def Fresh (client : TcpClient) (attempt : Attempt) : Prop :=
  0 ≤ attempt.fd ∧
    client.connectSocket.descriptors.holder attempt.fd = none

def Enabled (client : TcpClient) : ClientAction → Prop
  | .connect attempt => client.Fresh attempt
  | .stop | .disconnect | .enableRetry | .destroy => True
  | .retryTimer index attempt =>
      index < client.connectSocket.retryTimers.length ∧ client.Fresh attempt
  | .runFunctor attempt =>
      client.connectSocket.pendingFunctors ≠ [] ∧ client.Fresh attempt
  | .handleWrite fd _ =>
      (client.connectSocket.poller.interest fd).map EpollEvent.ptr =
        some .connectSocket
  | .linkOutput _ => client.tcpLink.isSome = true
  | .linkCloses attempt => client.tcpLink.isSome = true ∧ client.Fresh attempt
  | .outside action => client.connectSocket.Allows .others action

/-- Everything happens before the client is destroyed. -/
def machine : Machine TcpClient ClientAction Fault where
  enabled client action := client.destroyed = false ∧ client.Enabled action
  step := step

instance decidableEnabled (client : TcpClient) (action : ClientAction) :
    Decidable (machine.enabled client action) := by
  cases action <;> unfold machine Enabled Fresh <;> infer_instance

/-- An attempt is pending: the handler of the connecting socket waits in the
poller. -/
def Pending (client : TcpClient) : Prop :=
  client.connectSocket.connectState = .Connecting ∧
    client.connectSocket.handler.stateInPoll = .Added

/-- The link is not closed, no attempt that failed for good is stopped, and the
client is only destroyed while an attempt is pending. -/
def Owns (client : TcpClient) : ClientAction → Prop
  | .linkCloses _ => False
  | .runFunctor _ =>
      client.connectSocket.pendingFunctors.head? = some .stopInLoop →
        client.connectSocket.connectState = .Connecting → client.Pending
  | .destroy => client.Pending
  | .connect _ | .stop | .disconnect | .enableRetry | .retryTimer _ _
  | .handleWrite _ _ | .linkOutput _ | .outside _ => True

instance decidableOwns (client : TcpClient) (action : ClientAction) :
    Decidable (client.Owns action) := by
  cases action <;> unfold Owns <;> unfold Pending <;> infer_instance

end TcpClient

/-- A link whose handler is in the poller and whose descriptor is its own. -/
structure Linked (socket : ConnectSocket) (link : TcpLink) : Prop where
  idle : socket.Idle
  connected : socket.connectState = .Connected
  mirrors : ∃ last, Mirrors socket.poller .link link.handler last
  added : link.handler.stateInPoll = .Added
  reading : link.handler.isReading = true
  held : socket.descriptors.holder link.handler.fd = some .link
  alone : ∀ fd, socket.descriptors.holder fd = some .link →
    fd = link.handler.fd
  running : link.state ≠ .kDisconnected

/-- The same without saying that there is no descriptor of another link. -/
structure Joined (socket : ConnectSocket) (link : TcpLink) : Prop where
  idle : socket.Idle
  connected : socket.connectState = .Connected
  mirrors : ∃ last, Mirrors socket.poller .link link.handler last
  added : link.handler.stateInPoll = .Added
  reading : link.handler.isReading = true
  held : socket.descriptors.holder link.handler.fd = some .link
  running : link.state ≠ .kDisconnected

/-- Where the descriptor of the client is, if it has one. -/
inductive Keeps (socket : ConnectSocket) : Option TcpLink → Prop where
  | waiting : socket.Attached → socket.connectState = .Connecting →
      (∀ fd, socket.descriptors.holder fd ≠ some .link) → Keeps socket none
  | idle : socket.Idle →
      (∀ fd, socket.descriptors.holder fd ≠ some .link) → Keeps socket none
  | linked {link : TcpLink} : Linked socket link → Keeps socket (some link)

variable {socket : ConnectSocket} {tcpLink : Option TcpLink}
variable {link : TcpLink} {attempt : Attempt}

@[simp] theorem TcpLink.shutdown_fd :
    link.shutdown.handler.fd = link.handler.fd := by
  unfold TcpLink.shutdown
  split
  · rfl
  · rfl

theorem Linked.joined (linked : Linked socket link) : Joined socket link :=
  ⟨linked.idle, linked.connected, linked.mirrors, linked.added,
    linked.reading, linked.held, linked.running⟩

theorem Joined.linked (joined : Joined socket link)
    (alone : ∀ fd, socket.descriptors.holder fd = some .link →
      fd = link.handler.fd) : Linked socket link :=
  ⟨joined.idle, joined.connected, joined.mirrors, joined.added,
    joined.reading, joined.held, alone, joined.running⟩

theorem Joined.functors (joined : Joined socket link) {timers : List Nat}
    {functors : List ConnectFunctor} :
    Joined { socket with
      retryTimers := timers, pendingFunctors := functors } link :=
  ⟨joined.idle, joined.connected, joined.mirrors, joined.added,
    joined.reading, joined.held, joined.running⟩

theorem Joined.shutdown (joined : Joined socket link) :
    Joined socket link.shutdown := by
  unfold TcpLink.shutdown
  split
  · exact ⟨joined.idle, joined.connected, joined.mirrors, joined.added,
      joined.reading, joined.held, by simp⟩
  · exact joined

theorem Joined.outside (joined : Joined socket link) {action : OutsideAction}
    (allowed : socket.Allows .others action) :
    Joined (socket.outside .others action) link := by
  obtain ⟨_, state, _, _⟩ := socket.outside_kept .others action
  obtain ⟨last, mirrors⟩ := joined.mirrors
  exact
    { idle := joined.idle.outside (by decide) allowed
      connected := state.trans joined.connected
      mirrors := ⟨last, ConnectSocket.outside_mirrors allowed (by decide)
        joined.held mirrors⟩
      added := joined.added
      reading := joined.reading
      held := (ConnectSocket.outside_holder allowed (by decide)).mpr joined.held
      running := joined.running }

theorem Keeps.functors (keeps : Keeps socket tcpLink) {timers : List Nat}
    {functors : List ConnectFunctor} :
    Keeps { socket with
      retryTimers := timers, pendingFunctors := functors } tcpLink := by
  cases keeps with
  | waiting attached connecting unlinked =>
      exact .waiting attached connecting unlinked
  | idle idle unlinked => exact .idle idle unlinked
  | linked linked =>
      exact .linked (linked.joined.functors.linked linked.alone)

theorem Keeps.startInLoop (keeps : Keeps socket tcpLink)
    (fresh : socket.descriptors.holder attempt.fd = none) :
    ∃ after, socket.startInLoop attempt = .ok after ∧ Keeps after tcpLink := by
  by_cases stopped : socket.connectState = .Stopped
  · rw [ConnectSocket.startInLoop, if_pos stopped]
    cases keeps with
    | waiting attached connecting unlinked =>
        cases stopped.symm.trans connecting
    | linked linked => cases stopped.symm.trans linked.connected
    | idle idle unlinked =>
        obtain ⟨after, connected, ready, fatal⟩ := idle.connect fresh
        have leaves := ConnectSocket.connect_leaves connected
        have still : ∀ fd, after.descriptors.holder fd ≠ some .link := by
          intro fd held
          exact unlinked fd (leaves.holder fd .link (by decide) held)
        refine ⟨after, connected, ?_⟩
        by_cases failed : attempt.errno.outcome = .failed
        · exact .idle (fatal failed).1 still
        · rcases ready failed with ⟨connecting, attached⟩ | ⟨_, idle⟩
          · exact .waiting attached connecting still
          · exact .idle idle still
  · exact ⟨socket, if_neg stopped, keeps⟩

theorem Keeps.tidy (keeps : Keeps socket tcpLink) :
    TidyParts socket.poller socket.descriptors := by
  cases keeps with
  | waiting attached _ _ => exact attached.tidy
  | idle idle _ => exact idle.tidy
  | linked linked => exact linked.idle.tidy

/-- `stopInLoop` finds a pending attempt, one that failed for good, or nothing to
stop. -/
theorem Keeps.stopInLoop (keeps : Keeps socket tcpLink)
    (pending : socket.connectState = .Connecting →
      socket.handler.stateInPoll = .Added) :
    ∃ after, socket.stopInLoop = .ok after ∧ Keeps after tcpLink := by
  by_cases connecting : socket.connectState = .Connecting
  · cases keeps with
    | waiting attached _ unlinked =>
        obtain ⟨after, stopped, idle, _⟩ := attached.stopInLoop connecting
        obtain ⟨leaves, _⟩ := ConnectSocket.stopInLoop_leaves stopped
        refine ⟨after, stopped, .idle idle ?_⟩
        intro fd held
        exact unlinked fd (leaves.holder fd .link (by decide) held)
    | idle idle unlinked =>
        cases idle.new.symm.trans (pending connecting)
    | linked linked => cases connecting.symm.trans linked.connected
  · exact ⟨socket, ConnectSocket.stopInLoop_other connecting, keeps⟩

theorem Keeps.outside (keeps : Keeps socket tcpLink) {action : OutsideAction}
    (allowed : socket.Allows .others action) :
    Keeps (socket.outside .others action) tcpLink := by
  obtain ⟨_, state, _, _⟩ := socket.outside_kept .others action
  have same : ∀ fd, (socket.outside .others action).descriptors.holder fd =
      some .link ↔ socket.descriptors.holder fd = some .link := by
    intro fd
    exact ConnectSocket.outside_holder allowed (by decide)
  cases keeps with
  | waiting attached connecting unlinked =>
      refine .waiting (attached.outside (by decide) allowed)
        (state.trans connecting) ?_
      intro fd held
      exact unlinked fd ((same fd).mp held)
  | idle idle unlinked =>
      refine .idle (idle.outside (by decide) allowed) ?_
      intro fd held
      exact unlinked fd ((same fd).mp held)
  | linked linked =>
      refine .linked ((linked.joined.outside allowed).linked ?_)
      intro fd held
      exact linked.alone fd ((same fd).mp held)

theorem Keeps.shutdown (keeps : Keeps socket tcpLink) :
    Keeps socket (tcpLink.map TcpLink.shutdown) := by
  cases keeps with
  | waiting attached connecting unlinked =>
      exact .waiting attached connecting unlinked
  | idle idle unlinked => exact .idle idle unlinked
  | linked linked =>
      refine .linked (linked.joined.shutdown.linked ?_)
      intro fd held
      exact (linked.alone fd held).trans TcpLink.shutdown_fd.symm

/-- A removal of a handler that is not in the poller. -/
def Unregistered {α : Type} (outcome : Checked α) : Prop :=
  outcome = .error .removeHandlerFind ∨ outcome = .error .removeHandlerSame

theorem Unregistered.bind {α β : Type} {outcome : Checked α}
    (unregistered : Unregistered outcome) (next : α → Checked β) :
    Unregistered (outcome >>= next) := by
  rcases unregistered with rfl | rfl
  · exact .inl rfl
  · exact .inr rfl

theorem Unregistered.not_ok {α : Type} {outcome : Checked α} {value : α}
    (unregistered : Unregistered outcome) : outcome ≠ .ok value := by
  rcases unregistered with rfl | rfl
  · simp
  · simp

theorem Keeps.stopInLoop_failed (keeps : Keeps socket tcpLink)
    (connecting : socket.connectState = .Connecting)
    (gone : socket.handler.stateInPoll ≠ .Added) :
    Unregistered socket.stopInLoop := by
  cases keeps with
  | waiting attached _ _ => exact absurd attached.added gone
  | linked linked => cases connecting.symm.trans linked.connected
  | idle idle _ =>
      have stopped : { socket with connectState := .Stopped }.Idle := idle
      rw [ConnectSocket.stopInLoop, if_pos connecting]
      exact Unregistered.bind stopped.deregister _

theorem Keeps.waits (keeps : Keeps socket tcpLink) {fd : Int}
    (event : (socket.poller.interest fd).map EpollEvent.ptr =
      some .connectSocket) :
    socket.Attached ∧ socket.connectState = .Connecting ∧
      tcpLink = none ∧
      ∀ fd, socket.descriptors.holder fd ≠ some .link := by
  have held : socket.descriptors.holder fd = some .connectSocket := by
    obtain ⟨entry, found, ours⟩ := Option.map_eq_some_iff.mp event
    have known := keeps.tidy.watched fd entry found
    rw [ours] at known
    exact keeps.tidy.known fd .connectSocket known
  cases keeps with
  | waiting attached connecting unlinked =>
      exact ⟨attached, connecting, rfl, unlinked⟩
  | idle idle _ => exact absurd held (idle.unheld fd)
  | linked linked => exact absurd held (linked.idle.unheld fd)

namespace TcpClient

variable {client next : TcpClient} {action : ClientAction}

/-- The client with a handler of its link as it is now in the poller. -/
def recorded (client : TcpClient) (handler : FdHandler) : TcpClient :=
  { client with
    connectSocket := { client.connectSocket with
      poller := client.connectSocket.poller.record .link handler } }

theorem updateLink_eq {handler : FdHandler} {last : EventMask}
    (mirrors : Mirrors client.connectSocket.poller .link handler last)
    {flag : OptFlag} (old : flag = .DelEvent → handler.stateInPoll ≠ .New) :
    client.updateLink handler flag =
      (handler.updateInPoll flag).map fun after =>
        (client.recorded after, after) := by
  simp only [updateLink, mirrors.updateInPoll_eq old]
  cases handler.updateInPoll flag with
  | error fault => rfl
  | ok after => rfl

theorem recorded_idle {handler : FdHandler}
    (idle : client.connectSocket.Idle)
    (held : client.connectSocket.descriptors.holder handler.fd =
      some .link) : (client.recorded handler).connectSocket.Idle where
  tidy := idle.tidy.record held
  new := idle.new
  silent := idle.silent
  unheld := idle.unheld

/-- The link that `newConnection` makes of a descriptor. -/
def newLink (fd : Int) : TcpLink :=
  { handler := { fd, events := kReadEvent, revents := kNoneEvent,
                 stateInPoll := .Added }
    state := .kConnected }

/-- The client with a link for a descriptor of its connecting socket. -/
def withLink (client : TcpClient) (fd : Int) : TcpClient :=
  let socket := client.connectSocket
  let given : TcpClient := { client with
    connectSocket := { socket with
      descriptors := socket.descriptors.pass .link fd }
    nextLinkId := client.nextLinkId + 1 }
  { given.recorded (newLink fd).handler with tcpLink := some (newLink fd) }

theorem newConnection_eq (held : client.connectSocket.Held) :
    client.newConnection client.connectSocket.handler.fd =
      .ok (client.withLink client.connectSocket.handler.fd) := by
  let fd := client.connectSocket.handler.fd
  let given : TcpClient := { client with
    connectSocket := { client.connectSocket with
      descriptors := client.connectSocket.descriptors.pass .link fd }
    nextLinkId := client.nextLinkId + 1 }
  have interest : kNoneEvent ||| kReadEvent = kReadEvent := by decide
  have watched : client.connectSocket.poller.interest fd = none :=
    held.mirrors.watched.trans (by rw [held.new]; rfl)
  have mirrors : Mirrors given.connectSocket.poller .link
      (FdHandler.new fd).enableReading kNoneEvent :=
    ⟨held.unknown, watched⟩
  have updated : given.updateLink (FdHandler.new fd).enableReading .AddEvent =
      .ok (given.recorded (newLink fd).handler, (newLink fd).handler) := by
    rw [updateLink_eq mirrors (by simp)]
    simp [FdHandler.updateInPoll, FdHandler.updateHandler, FdHandler.new,
      FdHandler.enableReading, newLink, interest, pure, Except.pure,
      Except.map]
  exact congrArg (· >>= _) updated

theorem holder_withLink (held : client.connectSocket.Held) :
    let fd := client.connectSocket.handler.fd
    (client.withLink fd).connectSocket.descriptors.holder =
      write client.connectSocket.descriptors.holder fd (some .link) :=
  Handles.holder_pass (by simp [held.held])

theorem withLink_joined (held : client.connectSocket.Held)
    (connected : client.connectSocket.connectState = .Connected) :
    let fd := client.connectSocket.handler.fd
    Joined (client.withLink fd).connectSocket (newLink fd) := by
  have wanted : EventMask.meets kReadEvent kReadEvent = true := by decide
  have linked := (congrFun (holder_withLink held) _).trans write_same
  exact
    { idle := recorded_idle held.pass linked
      connected := connected
      mirrors := ⟨_, Epoll.record_mirrors⟩
      added := rfl
      reading := wanted
      held := linked
      running := by simp [newLink] }

theorem newConnection_keeps (held : client.connectSocket.Held)
    (connected : client.connectSocket.connectState = .Connected)
    (unlinked : ∀ fd,
      client.connectSocket.descriptors.holder fd ≠ some .link) :
    ∃ next, client.newConnection client.connectSocket.handler.fd =
        .ok next ∧ next.destroyed = client.destroyed ∧
      Keeps next.connectSocket next.tcpLink := by
  refine ⟨_, newConnection_eq held, rfl, .linked ?_⟩
  apply (withLink_joined held connected).linked
  intro other theirs
  rw [holder_withLink held] at theirs
  by_contra elsewhere
  exact unlinked other ((write_other elsewhere).symm.trans theirs)

/-- The link when it has begun or ceased to ask for write events. -/
def watching (link : TcpLink) (writing : Bool) : TcpLink :=
  { link with
    handler := if writing then link.handler.enableWriting
      else link.handler.disableWriting }

theorem watchOutput_joins (joined : Joined client.connectSocket link)
    (writing : Bool) :
    let handler := (watching link writing).handler
    client.watchOutput link writing =
        .ok { client.recorded handler with
          tcpLink := some (watching link writing) } ∧
      handler.fd = link.handler.fd ∧
      Joined (client.recorded handler).connectSocket
        (watching link writing) := by
  obtain ⟨last, mirrors⟩ := joined.mirrors
  let handler := (watching link writing).handler
  have fd : handler.fd = link.handler.fd := by
    cases writing <;> rfl
  have added : handler.stateInPoll = .Added := by
    cases writing <;> exact joined.added
  have reading : handler.isReading = true := by
    cases writing with
    | true =>
        exact (FdHandler.isReading_enableWriting _).trans joined.reading
    | false =>
        exact (FdHandler.isReading_disableWriting _).trans joined.reading
  have updated : client.updateLink handler .ModEvent =
      .ok (client.recorded handler, handler) := by
    rw [updateLink_eq (mirrors.interested fd (by rw [added, joined.added]))
      (by simp), FdHandler.updateInPoll_mod added reading]
    rfl
  have held : client.connectSocket.descriptors.holder handler.fd =
      some .link := fd ▸ joined.held
  refine ⟨congrArg (· >>= _) updated, fd, ?_⟩
  exact
    { idle := recorded_idle joined.idle held
      connected := joined.connected
      mirrors := ⟨_, Epoll.record_mirrors⟩
      added := added
      reading := reading
      held := held
      running := joined.running }

theorem watchOutput_keeps (linked : Linked client.connectSocket link)
    (writing : Bool) :
    ∃ next, client.watchOutput link writing = .ok next ∧
      next.destroyed = client.destroyed ∧
      Keeps next.connectSocket next.tcpLink := by
  obtain ⟨watched, fd, joined⟩ := watchOutput_joins linked.joined writing
  refine ⟨_, watched, rfl, .linked (joined.linked ?_)⟩
  intro other theirs
  exact (linked.alone other theirs).trans fd.symm

theorem handleWrite_keeps {fd : Int} {check : SocketCheck}
    (keeps : Keeps client.connectSocket client.tcpLink)
    (event : (client.connectSocket.poller.interest fd).map EpollEvent.ptr =
      some .connectSocket) :
    ∃ next, client.handleWrite check = .ok next ∧
      next.destroyed = client.destroyed ∧
      Keeps next.connectSocket next.tcpLink := by
  obtain ⟨attached, connecting, alone, unlinked⟩ := keeps.waits event
  by_cases fails : check.Fails
  · obtain ⟨after, handled, idle, _⟩ :=
      attached.handleWrite_fails connecting fails
    have leaves := ConnectSocket.handleWrite_leaves handled
    refine ⟨{ client with connectSocket := after }, ?_, rfl, ?_⟩
    · simp [handleWrite, handled, pure, Except.pure]
    · rw [alone]
      refine .idle idle ?_
      intro other held
      exact unlinked other (leaves.holder other .link (by decide) held)
  · obtain ⟨after, handled, held, same, connected⟩ :=
      attached.handleWrite_succeeds connecting fails
    have leaves := ConnectSocket.handleWrite_leaves handled
    have still : ∀ other, after.descriptors.holder other ≠ some .link := by
      intro other held
      exact unlinked other (leaves.holder other .link (by decide) held)
    let given : TcpClient := { client with connectSocket := after }
    obtain ⟨next, made, kept⟩ : ∃ next,
        given.newConnection after.handler.fd = .ok next ∧
          next.destroyed = given.destroyed ∧
          Keeps next.connectSocket next.tcpLink :=
      newConnection_keeps held connected still
    refine ⟨next, ?_, kept⟩
    rw [same] at made
    simpa [handleWrite, handled] using made

/-- A link whose handler was removed before cannot be destroyed. -/
theorem destroyLink_unregistered {handler : FdHandler}
    (gone : client.connectSocket.poller.fd2handler handler.fd ≠
      some .link) : Unregistered (client.destroyLink handler) := by
  have removed : Unregistered
      (client.updateLink handler.disableAll .DelEvent) := by
    have other : client.connectSocket.poller.fd2handler
        handler.disableAll.fd ≠ some .link := gone
    exact Unregistered.bind (Epoll.removeHandler_unknown other) _
  exact removed.bind _

/-- The link of a client that is destroyed leaves the poller and closes its
descriptor. -/
theorem destroyLink_idle (linked : Linked client.connectSocket link) :
    ∃ next, client.destroyLink link.handler = .ok next ∧
      next.connectSocket.Idle := by
  obtain ⟨last, mirrors⟩ := linked.mirrors
  let handler : FdHandler := ConnectSocket.resting link.handler
  have updated : client.updateLink link.handler.disableAll .DelEvent =
      .ok (client.recorded handler, handler) := by
    have old : link.handler.disableAll.stateInPoll ≠ .New := by
      simp [FdHandler.disableAll, linked.added]
    have silent : Mirrors client.connectSocket.poller .link
        link.handler.disableAll last := mirrors.interested rfl rfl
    rw [updateLink_eq silent (fun _ => old)]
    simp [FdHandler.updateInPoll, FdHandler.removeHandler,
      FdHandler.disableAll, FdHandler.isNoneEvent, handler,
      ConnectSocket.resting, pure, Except.pure, Except.map]
  have idle : (client.recorded handler).connectSocket.Idle :=
    recorded_idle linked.idle linked.held
  have unknown : (client.recorded handler).connectSocket.poller.fd2handler
      link.handler.fd = none := write_same
  refine ⟨_, congrArg (· >>= _) updated, ?_⟩
  exact
    { tidy := idle.tidy.release linked.held unknown
      new := idle.new
      silent := idle.silent
      unheld := by
        intro fd theirs
        have before : write client.connectSocket.descriptors.holder
            link.handler.fd none fd = some .connectSocket := by
          rw [← Handles.holder_release]
          exact theirs
        by_cases here : fd = link.handler.fd
        · simp [here] at before
        · exact linked.idle.unheld fd
            ((write_other here).symm.trans before) }

/-- What remains of a client: every descriptor it made was closed once. -/
def Settles (client : TcpClient) : Prop :=
  client.connectSocket.descriptors.strays = [] ∧
    client.connectSocket.descriptors.released.Perm
      (List.range client.connectSocket.descriptors.created)

/-- Nobody but the connecting socket and the link holds a descriptor that the
client made. -/
theorem unnumbered {socket : ConnectSocket} (idle : socket.Idle)
    (unlinked : ∀ fd, socket.descriptors.holder fd ≠ some .link) :
    ∀ fd resource, socket.descriptors.table fd = some resource →
      resource.serial = none := by
  intro fd resource found
  have holder : socket.descriptors.holder fd = some resource.holder :=
    congrArg (Option.map Resource.holder) found
  cases party : resource.holder with
  | connectSocket => exact absurd (party ▸ holder) (idle.unheld fd)
  | link => exact absurd (party ▸ holder) (unlinked fd)
  | others => exact idle.tidy.others fd resource found party

theorem destroy_pending
    (keeps : Keeps client.connectSocket client.tcpLink)
    (pending : client.Pending) :
    ∃ next, client.destroy = .ok next ∧ next.destroyed = true ∧
      next.Settles := by
  obtain ⟨connecting, added⟩ := pending
  cases shape : client.tcpLink with
  | some link =>
      rw [shape] at keeps
      cases keeps with
      | linked linked => cases connecting.symm.trans linked.connected
  | none =>
      rw [shape] at keeps
      cases keeps with
      | idle idle _ => cases idle.new.symm.trans added
      | waiting attached _ unlinked =>
          obtain ⟨removed, held⟩ := attached.deregister
          let after : ConnectSocket := (client.connectSocket.registered
            (ConnectSocket.resting client.connectSocket.handler)).close
          have idle : after.Idle := held.close
          have still : ∀ fd, after.descriptors.holder fd ≠ some .link := by
            intro fd theirs
            exact unlinked fd (ConnectSocket.holder_of_close theirs)
          refine ⟨{ client with connectSocket := after, destroyed := true },
            ?_, rfl, idle.tidy.strays, ?_⟩
          · simp only [destroy, shape, ok_bind, removed]
            rfl
          · exact idle.tidy.balanced.released_perm (unnumbered idle still)

theorem destroy_other
    (keeps : Keeps client.connectSocket client.tcpLink)
    (other : ¬ client.Pending) : Unregistered client.destroy := by
  cases shape : client.tcpLink with
  | some link =>
      rw [shape] at keeps
      cases keeps with
      | linked linked =>
          let freed : TcpClient := { client with tcpLink := none }
          obtain ⟨next, destroyed, idle⟩ : ∃ next,
              freed.destroyLink link.handler = .ok next ∧
                next.connectSocket.Idle := destroyLink_idle linked
          have removed : client.destroy = (do
              let connectSocket ← next.connectSocket.deregister
              return { next with
                connectSocket := connectSocket.close
                destroyed := true }) := by
            simp only [destroy, shape]
            exact congrArg (· >>= _) destroyed
          rw [removed]
          exact Unregistered.bind idle.deregister _
  | none =>
      rw [shape] at keeps
      cases keeps with
      | waiting attached connecting _ =>
          exact absurd ⟨connecting, attached.added⟩ other
      | idle idle _ =>
          simp only [destroy, shape, ok_bind]
          exact Unregistered.bind idle.deregister _

/-- A handler of a link that is in the map, but watches nothing. -/
def silenced (handler : FdHandler) : FdHandler :=
  { handler with events := kNoneEvent, stateInPoll := .Deleted }

theorem startClose_eq (joined : Joined client.connectSocket link) :
    client.startClose link =
      .ok (client.recorded (silenced link.handler),
        silenced link.handler) := by
  obtain ⟨last, mirrors⟩ := joined.mirrors
  have open' : link.state = .kConnected ∨ link.state = .kDisconnecting := by
    cases state : link.state with
    | kConnected => exact .inl rfl
    | kDisconnecting => exact .inr rfl
    | kDisconnected => exact absurd state joined.running
  have silent : Mirrors client.connectSocket.poller .link
      link.handler.disableAll last := mirrors.interested rfl rfl
  have added : link.handler.disableAll.stateInPoll = .Added := joined.added
  simp only [startClose, assertThat_bind, if_pos open']
  rw [updateLink_eq silent (by simp)]
  simp [FdHandler.updateInPoll, FdHandler.updateHandler, FdHandler.isNoneEvent,
    added, pure, Except.pure, Except.map]
  simp [FdHandler.disableAll, silenced]

/-- The client when `delConnection` has let go of its link. -/
def reported (client : TcpClient) (handler : FdHandler) : TcpClient :=
  let client := client.recorded (silenced handler)
  { client.recorded (ConnectSocket.resting handler) with tcpLink := none }

theorem reported_idle {handler : FdHandler}
    (idle : client.connectSocket.Idle)
    (held : client.connectSocket.descriptors.holder handler.fd =
      some .link) : (client.reported handler).connectSocket.Idle := by
  have silent : (client.recorded (silenced handler)).connectSocket.Idle :=
    recorded_idle idle held
  exact recorded_idle silent held

theorem delConnection_eq {handler : FdHandler} :
    (client.recorded (silenced handler)).delConnection (silenced handler)
        attempt =
      if client.retryFlag ∧ client.connectFlag then
        ((client.reported handler).connectSocket.restart attempt).map
          fun connectSocket =>
            ({ client.reported handler with connectSocket },
              ConnectSocket.resting handler)
      else .ok (client.reported handler, ConnectSocket.resting handler) := by
  have updated : (client.recorded (silenced handler)).updateLink
      (silenced handler) .DelEvent =
        .ok ((client.recorded (silenced handler)).recorded
          (ConnectSocket.resting handler), ConnectSocket.resting handler) := by
    rw [updateLink_eq Epoll.record_mirrors (by simp [silenced])]
    simp [FdHandler.updateInPoll, FdHandler.removeHandler,
      FdHandler.isNoneEvent, silenced, ConnectSocket.resting, pure,
      Except.pure, Except.map]
  simp only [delConnection, updated, ok_bind]
  by_cases retries : client.retryFlag ∧ client.connectFlag
  · rw [if_pos retries]
    refine (if_pos retries).trans ?_
    change (client.reported handler).connectSocket.restart attempt >>= _ = _
    cases (client.reported handler).connectSocket.restart attempt with
    | error fault => rfl
    | ok connectSocket => rfl
  · rw [if_neg retries]
    exact if_neg retries

/-- A link that the peer closes leaves the poller in `delConnection`, and again
when it is destroyed. -/
theorem handleClose_unregistered (joined : Joined client.connectSocket link)
    (fresh : client.Fresh attempt) :
    Unregistered (client.handleClose link attempt) := by
  have unknown : (client.reported link.handler).connectSocket.poller.fd2handler
      link.handler.fd = none := write_same
  simp only [handleClose, startClose_eq joined, ok_bind, delConnection_eq]
  by_cases retries : client.retryFlag ∧ client.connectFlag
  · rw [if_pos retries]
    let restarted : ConnectSocket :=
      { (client.reported link.handler).connectSocket with
        retryTimeMs := InitRetryTimeMs }
    have ready : restarted.Idle := reported_idle joined.idle joined.held
    obtain ⟨socket, connected, _⟩ := ready.connect fresh.2
    have apart : link.handler.fd ≠ attempt.fd := by
      intro same
      cases (same ▸ joined.held).symm.trans fresh.2
    have elsewhere := ready.connect_elsewhere fresh.2 connected apart
    have restarts : (client.reported link.handler).connectSocket.restart
        attempt = .ok socket := connected
    rw [restarts]
    apply destroyLink_unregistered
    intro known
    cases known.symm.trans (elsewhere.trans unknown)
  · rw [if_neg retries]
    apply destroyLink_unregistered
    intro known
    cases known.symm.trans unknown

/-- Before the end the descriptors are where they belong; at the end there are
none. -/
def Inv (client : TcpClient) : Prop :=
  if client.destroyed then client.Settles
  else Keeps client.connectSocket client.tcpLink

theorem Inv.of_keeps (alive : client.destroyed = false)
    (keeps : Keeps client.connectSocket client.tcpLink) : client.Inv := by
  rw [Inv, alive]
  exact keeps

theorem Inv.keeps (inv : client.Inv) (alive : client.destroyed = false) :
    Keeps client.connectSocket client.tcpLink := by
  rw [Inv, alive] at inv
  exact inv

theorem runFunctor_keeps (keeps : Keeps client.connectSocket client.tcpLink)
    (fresh : client.Fresh attempt) (owns : client.Owns (.runFunctor attempt)) :
    ∃ after, client.connectSocket.runFunctor attempt = .ok after ∧
      Keeps after client.tcpLink := by
  cases functors : client.connectSocket.pendingFunctors with
  | nil =>
      refine ⟨client.connectSocket, ?_, keeps⟩
      simp [ConnectSocket.runFunctor, functors]
  | cons functor rest =>
      have waiting : Keeps { client.connectSocket with
          pendingFunctors := rest } client.tcpLink := keeps.functors
      simp only [ConnectSocket.runFunctor, functors]
      cases functor with
      | startInLoop => exact waiting.startInLoop fresh.2
      | stopInLoop =>
          apply waiting.stopInLoop
          intro connecting
          exact (owns (by simp [functors]) connecting).2

theorem runFunctor_failed (keeps : Keeps client.connectSocket client.tcpLink)
    (other : ¬ client.Owns (.runFunctor attempt)) :
    Unregistered (client.connectSocket.runFunctor attempt) := by
  obtain ⟨first, rest⟩ := Classical.not_imp.mp other
  obtain ⟨connecting, gone⟩ := Classical.not_imp.mp rest
  obtain ⟨rest, functors⟩ := List.head?_eq_some_iff.mp first
  have waiting : Keeps { client.connectSocket with
      pendingFunctors := rest } client.tcpLink := keeps.functors
  simp only [ConnectSocket.runFunctor, functors]
  exact waiting.stopInLoop_failed connecting
    (fun added => gone ⟨connecting, added⟩)

/-- A step of somebody who owns what he removes and closes completes. -/
theorem Inv.step (inv : client.Inv) (enabled : machine.enabled client action)
    (owns : client.Owns action) :
    ∃ next, machine.step client action = .ok next ∧ next.Inv := by
  obtain ⟨alive, enabled⟩ := enabled
  have keeps := inv.keeps alive
  cases action with
  | connect attempt =>
      obtain ⟨after, started, kept⟩ := keeps.startInLoop enabled.2
      have done : client.step (.connect attempt) =
          .ok { client with connectSocket := after, connectFlag := true } :=
        congrArg (· >>= _) started
      exact ⟨_, done, .of_keeps alive kept⟩
  | stop => exact ⟨client.stop, rfl, .of_keeps alive keeps.functors⟩
  | disconnect =>
      exact ⟨client.disconnect, rfl, .of_keeps alive keeps.shutdown⟩
  | enableRetry =>
      exact ⟨client.enableRetry, rfl, .of_keeps alive keeps⟩
  | retryTimer index attempt =>
      have waiting : Keeps { client.connectSocket with
          retryTimers := client.connectSocket.retryTimers.eraseIdx index }
          client.tcpLink := keeps.functors
      obtain ⟨after, started, kept⟩ := waiting.startInLoop enabled.2.2
      have done : client.step (.retryTimer index attempt) =
          .ok { client with connectSocket := after } :=
        congrArg (· >>= _) started
      exact ⟨_, done, .of_keeps alive kept⟩
  | runFunctor attempt =>
      obtain ⟨after, ran, kept⟩ := runFunctor_keeps keeps enabled.2 owns
      have done : client.step (.runFunctor attempt) =
          .ok { client with connectSocket := after } :=
        congrArg (· >>= _) ran
      exact ⟨_, done, .of_keeps alive kept⟩
  | handleWrite fd check =>
      obtain ⟨next, handled, same, kept⟩ := handleWrite_keeps keeps enabled
      exact ⟨next, handled, .of_keeps (same.trans alive) kept⟩
  | linkOutput writing =>
      obtain ⟨link, shape⟩ := Option.isSome_iff_exists.mp enabled
      rw [shape] at keeps
      cases keeps with
      | linked linked =>
          obtain ⟨next, watched, same, kept⟩ :=
            watchOutput_keeps linked writing
          have done : client.step (.linkOutput writing) = .ok next := by
            simp only [TcpClient.step, ofLink, shape]
            exact watched
          exact ⟨next, done, .of_keeps (same.trans alive) kept⟩
  | linkCloses attempt => exact owns.elim
  | destroy =>
      obtain ⟨next, destroyed, dead, settles⟩ := destroy_pending keeps owns
      refine ⟨next, destroyed, ?_⟩
      rw [Inv, dead]
      exact settles
  | outside outside => exact ⟨_, rfl, .of_keeps alive (keeps.outside enabled)⟩

/-- Any other step removes a handler that is not registered. -/
theorem Inv.step_other (inv : client.Inv)
    (enabled : machine.enabled client action) (other : ¬ client.Owns action) :
    Unregistered (machine.step client action) := by
  obtain ⟨alive, enabled⟩ := enabled
  have keeps := inv.keeps alive
  cases action with
  | linkCloses attempt =>
      obtain ⟨link, shape⟩ := Option.isSome_iff_exists.mp enabled.1
      rw [shape] at keeps
      cases keeps with
      | linked linked =>
          have closes := handleClose_unregistered linked.joined enabled.2
          simp only [machine, TcpClient.step, ofLink, shape]
          exact closes
  | runFunctor attempt => exact (runFunctor_failed keeps other).bind _
  | destroy => exact destroy_other keeps other
  | connect attempt => exact absurd trivial other
  | stop => exact absurd trivial other
  | disconnect => exact absurd trivial other
  | enableRetry => exact absurd trivial other
  | retryTimer index attempt => exact absurd trivial other
  | handleWrite fd check => exact absurd trivial other
  | linkOutput writing => exact absurd trivial other
  | outside outside => exact absurd trivial other

/-- Nothing was closed that the one who closed it did not hold, no descriptor was
closed twice, and none is left of a client that was destroyed. -/
structure Sound (client : TcpClient) : Prop where
  strays : client.connectSocket.descriptors.strays = []
  once : client.connectSocket.descriptors.released.Nodup
  all : client.destroyed = true →
    client.connectSocket.descriptors.released.Perm
      (List.range client.connectSocket.descriptors.created)

theorem Inv.sound (inv : client.Inv) : client.Sound := by
  cases alive : client.destroyed with
  | true =>
      rw [Inv, alive] at inv
      exact ⟨inv.1, inv.2.nodup_iff.mpr List.nodup_range, fun _ => inv.2⟩
  | false =>
      have tidy := (inv.keeps alive).tidy
      exact ⟨tidy.strays, tidy.balanced.released_nodup,
        fun dead => by cases alive.symm.trans dead⟩

theorem new_inv : new.Inv := by
  apply Inv.of_keeps rfl
  refine .idle ⟨.empty, rfl, rfl, ?_⟩ ?_
  · intro fd held
    cases held
  · intro fd held
    cases held

theorem run_inv {actions : List ClientAction}
    (run : (machine.restrict Owns).Run new actions client) : client.Inv := by
  apply run.restrict_invariant new_inv
  intro state action next inv enabled owns stepped
  obtain ⟨other, result, kept⟩ := inv.step enabled owns
  obtain rfl := Except.ok.inj (result.symm.trans stepped)
  exact kept

/-- In a run whose steps all meet the condition the descriptors of the client are
closed by their owners and once.  The next step goes on like that exactly if it
meets the condition; otherwise it removes a handler that is not registered. -/
theorem client_owns_iff {actions : List ClientAction}
    (run : (machine.restrict Owns).Run new actions client) :
    client.Sound ∧ ∀ action, machine.enabled client action →
      ((∃ next, machine.step client action = .ok next ∧ next.Sound) ↔
        client.Owns action) ∧
      (¬ client.Owns action →
        Unregistered (machine.step client action)) := by
  have inv := run_inv run
  refine ⟨inv.sound, ?_⟩
  intro action enabled
  refine ⟨⟨?_, ?_⟩, inv.step_other enabled⟩
  · rintro ⟨next, stepped, _⟩
    by_contra other
    exact (inv.step_other enabled other).not_ok stepped
  · intro owns
    obtain ⟨next, stepped, kept⟩ := inv.step enabled owns
    exact ⟨next, stepped, kept.sound⟩

/-- A refused attempt, one that is stopped, and one that is still pending when the
client is destroyed. -/
theorem client_owns_iff_pending :
    ∃ actions client, (machine.restrict Owns).Run new actions client ∧
      client.destroyed = true ∧
      client.connectSocket.descriptors.created = 3 ∧
      client.connectSocket.descriptors.released.Perm [0, 1, 2] := by
  have found : ((machine.restrict Owns).execute new
      [.connect ⟨5, .ECONNREFUSED⟩, .outside (.opens 6),
        .retryTimer 0 ⟨5, .EINPROGRESS⟩, .stop, .runFunctor ⟨7, .success⟩,
        .connect ⟨5, .success⟩, .destroy]).any
      (fun client => client.destroyed = true ∧
        client.connectSocket.descriptors.created = 3) = true := by
    decide +kernel
  obtain ⟨client, run, reached⟩ := Machine.run_of_execute found
  obtain ⟨destroyed, created⟩ := of_decide_eq_true reached
  obtain ⟨sound, _⟩ := client_owns_iff run
  have all := sound.all destroyed
  rw [created] at all
  exact ⟨_, client, run, destroyed, created, all⟩

/-- The peer closes the link: `delConnection` has removed its handler when the
destructor removes it again. -/
theorem closed_link_removed_twice :
    ∃ client, machine.Run new
        [.connect ⟨5, .EINPROGRESS⟩, .handleWrite 5 ⟨0, false⟩] client ∧
      machine.enabled client (.linkCloses ⟨6, .success⟩) ∧
      machine.step client (.linkCloses ⟨6, .success⟩) =
        .error .removeHandlerFind := by
  have found : (machine.execute new
      [.connect ⟨5, .EINPROGRESS⟩, .handleWrite 5 ⟨0, false⟩]).any
      (fun client => machine.enabled client (.linkCloses ⟨6, .success⟩) ∧
        (match machine.step client (.linkCloses ⟨6, .success⟩) with
          | .error .removeHandlerFind => true
          | _ => false) = true) = true := by
    decide +kernel
  obtain ⟨client, run, reached⟩ := Machine.run_of_execute found
  obtain ⟨enabled, faults⟩ := of_decide_eq_true reached
  refine ⟨client, run, enabled, ?_⟩
  split at faults
  · next fault => exact fault
  · cases faults

end TcpClient

end Muduo
