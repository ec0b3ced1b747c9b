import Muduo.Net.ConnectSocket
import Muduo.Net.EpollRuns

/-!
# What the steps of a connecting socket do

A `ConnectSocket` is idle, or it holds a descriptor that the poller does not
know, or it is attached: it holds a descriptor and waits for it to become
writable.  The functions of the source go from one of these to another; all
three say nothing about the state, the timers and the functors.
-/

namespace Muduo

open Library

/-- How `connect` goes on after connect(2). -/
inductive ConnectOutcome where
  | pending
  | retried
  | failed
  deriving DecidableEq, Repr

def ConnectErrno.outcome : ConnectErrno → ConnectOutcome
  | .success | .EINPROGRESS | .EINTR | .EISCONN => .pending
  | .EAGAIN | .EADDRINUSE | .EADDRNOTAVAIL | .ECONNREFUSED | .ENETUNREACH =>
      .retried
  | .EACCES | .EPERM | .EAFNOSUPPORT | .EALREADY | .EBADF | .EFAULT
  | .ENOTSOCK | .unexpected _ => .failed

/-- The checks of `handleWrite` after which it retries. -/
def SocketCheck.Fails (check : SocketCheck) : Prop :=
  check.socketError ≠ 0 ∨ check.selfConnect = true

/-- The poller knows handlers only of those who hold the descriptors, the kernel
only watches for handlers that the poller knows, nobody has closed what he does
not hold, and others hold no socket of ours. -/
structure TidyParts (poller : Epoll Party) (descriptors : Handles Int Party) :
    Prop where
  known : ∀ fd party, poller.fd2handler fd = some party →
    descriptors.holder fd = some party
  watched : ∀ fd event, poller.interest fd = some event →
    poller.fd2handler fd = some event.ptr
  strays : descriptors.strays = []
  balanced : descriptors.Balanced
  others : ∀ fd resource, descriptors.table fd = some resource →
    resource.holder = .others → resource.serial = none

structure IdleParts (handler : FdHandler) (poller : Epoll Party)
    (descriptors : Handles Int Party) : Prop where
  tidy : TidyParts poller descriptors
  new : handler.stateInPoll = .New
  silent : handler.events = kNoneEvent
  unheld : ∀ fd, descriptors.holder fd ≠ some .connectSocket

structure HeldParts (handler : FdHandler) (poller : Epoll Party)
    (descriptors : Handles Int Party) : Prop where
  tidy : TidyParts poller descriptors
  new : handler.stateInPoll = .New
  silent : handler.events = kNoneEvent
  held : descriptors.holder handler.fd = some .connectSocket
  alone : ∀ fd, descriptors.holder fd = some .connectSocket →
    fd = handler.fd
  mirrors : Mirrors poller .connectSocket handler kNoneEvent

structure AttachedParts (handler : FdHandler) (poller : Epoll Party)
    (descriptors : Handles Int Party) : Prop where
  tidy : TidyParts poller descriptors
  added : handler.stateInPoll = .Added
  writing : handler.events = kWriteEvent
  held : descriptors.holder handler.fd = some .connectSocket
  alone : ∀ fd, descriptors.holder fd = some .connectSocket →
    fd = handler.fd
  mirrors : Mirrors poller .connectSocket handler kWriteEvent

namespace TidyParts

variable {poller : Epoll Party} {descriptors : Handles Int Party}
variable {party : Party} {fd : Int}

theorem empty : TidyParts .new .empty where
  known _ _ found := by cases found
  watched _ _ found := by cases found
  strays := rfl
  balanced := .empty
  others _ _ found := by cases found

theorem unknown (tidy : TidyParts poller descriptors)
    (closed : descriptors.holder fd = none) :
    poller.fd2handler fd = none := by
  cases found : poller.fd2handler fd with
  | none => rfl
  | some party => cases closed.symm.trans (tidy.known fd party found)

theorem unwatched (tidy : TidyParts poller descriptors)
    (closed : descriptors.holder fd = none) : poller.interest fd = none := by
  cases found : poller.interest fd with
  | none => rfl
  | some event =>
      cases (tidy.unknown closed).symm.trans (tidy.watched fd event found)

theorem record (tidy : TidyParts poller descriptors) {handler : FdHandler}
    (held : descriptors.holder handler.fd = some party) :
    TidyParts (poller.record party handler) descriptors where
  known other known found := by
    by_cases here : other = handler.fd
    · subst here
      have entry : handler.stateInPoll.entry party = some known :=
        write_same.symm.trans found
      cases state : handler.stateInPoll with
      | New => simp [state, StateInPoll.entry] at entry
      | Added =>
          rw [state] at entry
          exact held.trans entry
      | Deleted =>
          rw [state] at entry
          exact held.trans entry
    · exact tidy.known other known ((write_other here).symm.trans found)
  watched other event found := by
    by_cases here : other = handler.fd
    · subst here
      have entry : handler.stateInPoll.event ⟨handler.events, party⟩ =
          some event := write_same.symm.trans found
      refine write_same.trans ?_
      cases state : handler.stateInPoll with
      | New => simp [state, StateInPoll.event] at entry
      | Added =>
          rw [state] at entry
          obtain rfl := Option.some.inj entry
          rfl
      | Deleted => simp [state, StateInPoll.event] at entry
    · exact (write_other here).trans
        (tidy.watched other event ((write_other here).symm.trans found))
  strays := tidy.strays
  balanced := tidy.balanced
  others := tidy.others

theorem known_elsewhere (tidy : TidyParts poller descriptors)
    {holder : Option Party} (unknown : poller.fd2handler fd = none)
    {other : Int} {known : Party}
    (found : poller.fd2handler other = some known) :
    write descriptors.holder fd holder other = some known := by
  have apart : other ≠ fd := by
    rintro rfl
    cases unknown.symm.trans found
  exact (write_other apart).trans (tidy.known other known found)

theorem others_write (tidy : TidyParts poller descriptors)
    {written : Option (Resource Party)}
    (there : ∀ resource, written = some resource →
      resource.holder = .others → resource.serial = none)
    (other : Int) (resource : Resource Party)
    (found : write descriptors.table fd written other = some resource)
    (theirs : resource.holder = .others) : resource.serial = none := by
  by_cases here : other = fd
  · subst here
    exact there resource (write_same.symm.trans found) theirs
  · exact tidy.others other resource ((write_other here).symm.trans found)
      theirs

theorem acquire (tidy : TidyParts poller descriptors)
    (fresh : descriptors.holder fd = none) (ours : party ≠ .others) :
    TidyParts poller (descriptors.acquire party fd) where
  known other known found := by
    rw [Handles.holder_acquire]
    exact tidy.known_elsewhere (tidy.unknown fresh) found
  watched := tidy.watched
  strays := tidy.strays
  balanced := tidy.balanced.acquire (Handles.holder_eq_none.mp fresh)
  others := by
    apply tidy.others_write
    rintro resource ⟨⟩ theirs
    exact absurd theirs ours

theorem adopt (tidy : TidyParts poller descriptors)
    (fresh : descriptors.holder fd = none) :
    TidyParts poller (descriptors.adopt party fd) where
  known other known found := by
    rw [Handles.holder_adopt]
    exact tidy.known_elsewhere (tidy.unknown fresh) found
  watched := tidy.watched
  strays := tidy.strays
  balanced := tidy.balanced.adopt (Handles.holder_eq_none.mp fresh)
  others := by
    apply tidy.others_write
    rintro resource ⟨⟩ _
    rfl

/-- A descriptor changes hands when the poller does not know it. -/
theorem pass (tidy : TidyParts poller descriptors)
    (present : descriptors.holder fd ≠ none)
    (unknown : poller.fd2handler fd = none) (ours : party ≠ .others) :
    TidyParts poller (descriptors.pass party fd) where
  known other known found := by
    rw [Handles.holder_pass present]
    exact tidy.known_elsewhere unknown found
  watched := tidy.watched
  strays := tidy.strays
  balanced := tidy.balanced.pass
  others := by
    apply tidy.others_write
    intro resource found theirs
    obtain ⟨before, _, rfl⟩ := Option.map_eq_some_iff.mp found
    exact absurd theirs ours

/-- A descriptor is closed by its holder when the poller does not know it. -/
theorem release (tidy : TidyParts poller descriptors)
    (held : descriptors.holder fd = some party)
    (unknown : poller.fd2handler fd = none) :
    TidyParts (poller.closed fd) (descriptors.release party fd) where
  known other known found := by
    rw [Handles.holder_release]
    exact tidy.known_elsewhere unknown found
  watched other event found := by
    by_cases here : other = fd
    · subst here
      cases write_same.symm.trans found
    · exact tidy.watched other event ((write_other here).symm.trans found)
  strays := (if_pos held).trans tidy.strays
  balanced := tidy.balanced.release
  others := by
    apply tidy.others_write
    intro resource found
    cases found

end TidyParts

namespace ConnectSocket

abbrev Idle (socket : ConnectSocket) : Prop :=
  IdleParts socket.handler socket.poller socket.descriptors

abbrev Held (socket : ConnectSocket) : Prop :=
  HeldParts socket.handler socket.poller socket.descriptors

abbrev Attached (socket : ConnectSocket) : Prop :=
  AttachedParts socket.handler socket.poller socket.descriptors

/-- The socket with its handler as it is now in the poller. -/
def registered (socket : ConnectSocket) (handler : FdHandler) :
    ConnectSocket :=
  { socket with
    handler
    poller := socket.poller.record .connectSocket handler }

variable {socket : ConnectSocket}

theorem updateInPoll_eq {handler : FdHandler} {last : EventMask}
    (mirrors : Mirrors socket.poller .connectSocket handler last)
    {flag : OptFlag} (old : flag = .DelEvent → handler.stateInPoll ≠ .New) :
    { socket with handler }.updateInPoll flag =
      (handler.updateInPoll flag).map socket.registered := by
  unfold updateInPoll
  rw [mirrors.updateInPoll_eq old]
  cases handler.updateInPoll flag with
  | error fault => rfl
  | ok after => rfl

theorem Idle.createSocket (idle : socket.Idle) {fd : Int}
    (fresh : socket.descriptors.holder fd = none) :
    (socket.createSocket fd).Held where
  tidy := idle.tidy.acquire fresh (by decide)
  new := idle.new
  silent := idle.silent
  held := by
    simp [ConnectSocket.createSocket, Handles.holder_acquire]
  alone other held := by
    by_contra different
    have elsewhere : other ≠ fd := different
    rw [ConnectSocket.createSocket, Handles.holder_acquire,
      write_other elsewhere] at held
    exact idle.unheld other held
  mirrors := by
    have new : (socket.createSocket fd).handler.stateInPoll = .New := idle.new
    constructor
    · rw [new]
      exact idle.tidy.unknown fresh
    · rw [new]
      exact idle.tidy.unwatched fresh

/-- A handler that waits for its socket to become writable. -/
def waiting (handler : FdHandler) : FdHandler :=
  { handler with events := kWriteEvent, stateInPoll := .Added }

/-- A handler that the poller does not know and that waits for nothing. -/
def resting (handler : FdHandler) : FdHandler :=
  { handler with events := kNoneEvent, stateInPoll := .New }

theorem Held.attach (held : socket.Held) :
    { socket with handler := socket.handler.enableWriting }.updateInPoll
        .AddEvent =
      .ok (socket.registered (waiting socket.handler)) ∧
    (socket.registered (waiting socket.handler)).Attached := by
  have interest : kNoneEvent ||| kWriteEvent = kWriteEvent := by decide
  constructor
  · have mirrors : Mirrors socket.poller .connectSocket
        socket.handler.enableWriting kNoneEvent :=
      held.mirrors.interested rfl rfl
    rw [updateInPoll_eq mirrors (by simp)]
    simp [FdHandler.updateInPoll, FdHandler.updateHandler,
      FdHandler.enableWriting, held.new, held.silent, interest, waiting,
      registered, pure, Except.pure, Except.map]
  · exact
      { tidy := held.tidy.record held.held
        added := rfl
        writing := rfl
        held := held.held
        alone := held.alone
        mirrors := Epoll.record_mirrors }

theorem Attached.deregister (attached : socket.Attached) :
    socket.deregister = .ok (socket.registered (resting socket.handler)) ∧
    (socket.registered (resting socket.handler)).Held := by
  constructor
  · have mirrors : Mirrors socket.poller .connectSocket
        socket.handler.disableAll kWriteEvent :=
      attached.mirrors.interested rfl rfl
    have old : socket.handler.disableAll.stateInPoll ≠ .New := by
      simp [FdHandler.disableAll, attached.added]
    rw [ConnectSocket.deregister, updateInPoll_eq mirrors (fun _ => old)]
    simp [FdHandler.updateInPoll, FdHandler.removeHandler,
      FdHandler.disableAll, FdHandler.isNoneEvent, resting, registered, pure,
      Except.pure, Except.map]
  · exact
      { tidy := attached.tidy.record attached.held
        new := rfl
        silent := rfl
        held := attached.held
        alone := attached.alone
        mirrors := Epoll.record_mirrors }

theorem Held.unknown (held : socket.Held) :
    socket.poller.fd2handler socket.handler.fd = none :=
  held.mirrors.known.trans (congrArg _ held.new)

theorem Held.close (held : socket.Held) : socket.close.Idle where
  tidy := held.tidy.release held.held held.unknown
  new := held.new
  silent := held.silent
  unheld fd := by
    rw [ConnectSocket.close, Handles.holder_release]
    by_cases here : fd = socket.handler.fd
    · simp [here]
    · rw [write_other here]
      exact mt (held.alone fd) here

theorem Idle.unknown (idle : socket.Idle) (fd : Int) :
    socket.poller.fd2handler fd ≠ some .connectSocket :=
  mt (idle.tidy.known fd .connectSocket) (idle.unheld fd)

theorem Idle.deregister (idle : socket.Idle) :
    socket.deregister = .error .removeHandlerFind ∨
      socket.deregister = .error .removeHandlerSame := by
  have removed : socket.deregister =
      (socket.poller.removeHandler .connectSocket
        socket.handler.disableAll).map fun result =>
          { socket with poller := result.1, handler := result.2 } := by
    simp only [ConnectSocket.deregister, updateInPoll, Epoll.updateInPoll]
    cases socket.poller.removeHandler .connectSocket
        socket.handler.disableAll with
    | error fault => rfl
    | ok result => rfl
  have other : socket.poller.fd2handler socket.handler.disableAll.fd ≠
      some .connectSocket := idle.unknown _
  rw [removed]
  rcases Epoll.removeHandler_unknown other with find | same
  · exact .inl (by rw [find]; rfl)
  · exact .inr (by rw [same]; rfl)

theorem Held.pass (held : socket.Held) :
    { socket with descriptors :=
        socket.descriptors.pass .link socket.handler.fd }.Idle where
  tidy := held.tidy.pass (by simp [held.held]) held.unknown (by decide)
  new := held.new
  silent := held.silent
  unheld fd := by
    rw [Handles.holder_pass (by simp [held.held])]
    by_cases here : fd = socket.handler.fd
    · simp [here]
    · rw [write_other here]
      exact mt (held.alone fd) here

/-- The socket when `connect` looks at the outcome of connect(2). -/
def opened (socket : ConnectSocket) (fd : Int) : ConnectSocket :=
  ({ socket with connectState := .Connecting }.createSocket fd).record
    (.connect fd)

theorem connect_eq (socket : ConnectSocket) (attempt : Attempt) :
    socket.connect attempt =
      let opened := socket.opened attempt.fd
      match attempt.errno.outcome with
      | .pending =>
          { opened with handler := opened.handler.enableWriting }.updateInPoll
            .AddEvent
      | .retried => .ok opened.retry
      | .failed => .ok opened.close := by
  unfold connect opened
  cases attempt.errno <;> rfl

/-- The agreement of state and descriptor. -/
def Ready (socket : ConnectSocket) : Prop :=
  (socket.connectState = .Connecting ∧ socket.Attached) ∨
    (socket.connectState ≠ .Connecting ∧ socket.Idle)

theorem Idle.opened (idle : socket.Idle) {fd : Int}
    (fresh : socket.descriptors.holder fd = none) : (socket.opened fd).Held :=
  idle.createSocket fresh

theorem Held.retry (held : socket.Held) : socket.retry.Idle := held.close

section Attempts

variable {attempt : Attempt}

theorem Idle.connect_pending (idle : socket.Idle)
    (fresh : socket.descriptors.holder attempt.fd = none)
    (pending : attempt.errno.outcome = .pending) :
    ∃ next, socket.connect attempt = .ok next ∧ next.Attached ∧
      next.connectState = .Connecting := by
  obtain ⟨added, attached⟩ := (idle.opened fresh).attach
  refine ⟨_, ?_, attached, rfl⟩
  simpa only [connect_eq, pending] using added

theorem Idle.connect_retried (idle : socket.Idle)
    (fresh : socket.descriptors.holder attempt.fd = none)
    (retried : attempt.errno.outcome = .retried) :
    ∃ next, socket.connect attempt = .ok next ∧ next.Idle ∧
      next.connectState = .Stopped := by
  refine ⟨_, ?_, (idle.opened fresh).retry, rfl⟩
  simp only [connect_eq, retried]

/-- After a fatal outcome the descriptor is closed, but the state remains
`Connecting`. -/
theorem Idle.connect_failed (idle : socket.Idle)
    (fresh : socket.descriptors.holder attempt.fd = none)
    (failed : attempt.errno.outcome = .failed) :
    ∃ next, socket.connect attempt = .ok next ∧ next.Idle ∧
      next.connectState = .Connecting := by
  refine ⟨_, ?_, (idle.opened fresh).close, rfl⟩
  simp only [connect_eq, failed]

theorem Idle.connect_elsewhere (idle : socket.Idle)
    (fresh : socket.descriptors.holder attempt.fd = none)
    {next : ConnectSocket} (connected : socket.connect attempt = .ok next)
    {fd : Int} (apart : fd ≠ attempt.fd) :
    next.poller.fd2handler fd = socket.poller.fd2handler fd := by
  rw [connect_eq] at connected
  cases outcome : attempt.errno.outcome with
  | pending =>
      simp only [outcome] at connected
      obtain ⟨added, _⟩ := (idle.opened fresh).attach
      obtain rfl := Except.ok.inj (added.symm.trans connected)
      exact write_other apart
  | retried =>
      simp only [outcome] at connected
      obtain rfl := Except.ok.inj connected
      rfl
  | failed =>
      simp only [outcome] at connected
      obtain rfl := Except.ok.inj connected
      rfl

end Attempts

theorem Attached.stopInLoop (attached : socket.Attached)
    (connecting : socket.connectState = .Connecting) :
    ∃ next, socket.stopInLoop = .ok next ∧ next.Idle ∧
      next.connectState = .Stopped := by
  have stopped : { socket with connectState := .Stopped }.Attached := attached
  obtain ⟨removed, held⟩ := stopped.deregister
  refine ⟨_, ?_, held.close, rfl⟩
  simp only [ConnectSocket.stopInLoop, if_pos connecting, removed, ok_bind]
  rfl

theorem stopInLoop_other (other : socket.connectState ≠ .Connecting) :
    socket.stopInLoop = .ok socket := if_neg other

theorem handleWrite_other {check : SocketCheck}
    (other : socket.connectState ≠ .Connecting) :
    socket.handleWrite check = .ok (socket, none) := if_neg other

theorem Attached.handleWrite_fails {check : SocketCheck}
    (attached : socket.Attached)
    (connecting : socket.connectState = .Connecting) (fails : check.Fails) :
    ∃ next, socket.handleWrite check = .ok (next, none) ∧ next.Idle ∧
      next.connectState = .Stopped := by
  obtain ⟨removed, held⟩ := attached.deregister
  refine ⟨_, ?_, held.retry, rfl⟩
  simp only [ConnectSocket.handleWrite, if_pos connecting, removed, ok_bind]
  by_cases error : check.socketError ≠ 0
  · rw [if_pos error]
    rfl
  · rw [if_neg error, if_pos (fails.resolve_left error)]
    rfl

theorem Attached.handleWrite_succeeds {check : SocketCheck}
    (attached : socket.Attached)
    (connecting : socket.connectState = .Connecting)
    (succeeds : ¬ check.Fails) :
    ∃ next, socket.handleWrite check = .ok (next, some socket.handler.fd) ∧
      next.Held ∧ next.handler.fd = socket.handler.fd ∧
      next.connectState = .Connected := by
  obtain ⟨removed, held⟩ := attached.deregister
  obtain ⟨error, other⟩ := not_or.mp succeeds
  refine ⟨({ socket.registered (resting socket.handler) with
    connectState := .Connected }).record (.newConnection socket.handler.fd),
    ?_, held, rfl, rfl⟩
  simp only [ConnectSocket.handleWrite, if_pos connecting, removed, ok_bind]
  rw [if_neg error, if_neg other]
  rfl

theorem Idle.connect (idle : socket.Idle) {attempt : Attempt}
    (fresh : socket.descriptors.holder attempt.fd = none) :
    ∃ next, socket.connect attempt = .ok next ∧
      (attempt.errno.outcome ≠ .failed → next.Ready) ∧
      (attempt.errno.outcome = .failed →
        next.Idle ∧ next.connectState = .Connecting) := by
  cases outcome : attempt.errno.outcome with
  | pending =>
      obtain ⟨next, connected, attached, connecting⟩ :=
        idle.connect_pending fresh outcome
      exact ⟨next, connected, fun _ => .inl ⟨connecting, attached⟩, by simp⟩
  | retried =>
      obtain ⟨next, connected, idle, stopped⟩ :=
        idle.connect_retried fresh outcome
      have other : next.connectState ≠ .Connecting := by simp [stopped]
      exact ⟨next, connected, fun _ => .inr ⟨other, idle⟩, by simp⟩
  | failed =>
      obtain ⟨next, connected, idle, connecting⟩ :=
        idle.connect_failed fresh outcome
      exact ⟨next, connected, by simp, fun _ => ⟨idle, connecting⟩⟩

/-- What calls leave behind in any state: what they tell the kernel and the
owner, and no descriptor for anybody else. -/
structure Leaves (socket next : ConnectSocket) (events : List ConnectEvent) :
    Prop where
  trace : next.trace = socket.trace ++ events
  holder : ∀ fd party, party ≠ .connectSocket →
    next.descriptors.holder fd = some party →
    socket.descriptors.holder fd = some party

section Leaving

variable {next : ConnectSocket} {attempt : Attempt}

theorem updateInPoll_kept {flag : OptFlag}
    (updated : socket.updateInPoll flag = .ok next) :
    next.connectState = socket.connectState ∧
      next.trace = socket.trace ∧ next.descriptors = socket.descriptors := by
  obtain ⟨result, _, same⟩ := bind_eq_ok updated
  cases same
  exact ⟨rfl, rfl, rfl⟩

theorem deregister_kept (removed : socket.deregister = .ok next) :
    next.connectState = socket.connectState ∧
      next.trace = socket.trace ∧ next.descriptors = socket.descriptors := by
  have updated : { socket with
      handler := socket.handler.disableAll }.updateInPoll .DelEvent =
        .ok next := removed
  have kept := updateInPoll_kept updated
  exact kept

theorem holder_of_close {fd : Int} {party : Party}
    (held : socket.close.descriptors.holder fd = some party) :
    socket.descriptors.holder fd = some party := by
  rw [close, Handles.holder_release] at held
  by_cases here : fd = socket.handler.fd
  · simp [here] at held
  · exact (write_other here).symm.trans held

theorem holder_of_opened {fd other : Int} {party : Party}
    (theirs : party ≠ .connectSocket)
    (held : (socket.opened fd).descriptors.holder other = some party) :
    socket.descriptors.holder other = some party := by
  have acquired : write socket.descriptors.holder fd (some .connectSocket)
      other = some party := by
    rw [← Handles.holder_acquire]
    exact held
  by_cases here : other = fd
  · rw [here, write_same] at acquired
    exact absurd (Option.some.inj acquired).symm theirs
  · exact (write_other here).symm.trans acquired

theorem connect_leaves (connected : socket.connect attempt = .ok next) :
    socket.Leaves next [.connect attempt.fd] := by
  rw [connect_eq] at connected
  cases outcome : attempt.errno.outcome with
  | pending =>
      simp only [outcome] at connected
      obtain ⟨_, trace, descriptors⟩ := updateInPoll_kept connected
      refine ⟨trace, ?_⟩
      intro fd party theirs held
      rw [descriptors] at held
      exact holder_of_opened theirs held
  | retried =>
      simp only [outcome] at connected
      obtain rfl := Except.ok.inj connected
      refine ⟨rfl, ?_⟩
      intro fd party theirs held
      exact holder_of_opened theirs (holder_of_close held)
  | failed =>
      simp only [outcome] at connected
      obtain rfl := Except.ok.inj connected
      refine ⟨rfl, ?_⟩
      intro fd party theirs held
      exact holder_of_opened theirs (holder_of_close held)

/-- The state that `connect` leaves; `retry` has made it `Stopped` again. -/
theorem connect_state (connected : socket.connect attempt = .ok next) :
    next.connectState =
      if attempt.errno.outcome = .retried then .Stopped else .Connecting := by
  rw [connect_eq] at connected
  cases outcome : attempt.errno.outcome with
  | pending =>
      simp only [outcome] at connected
      obtain ⟨state, _, _⟩ := updateInPoll_kept connected
      exact state
  | retried =>
      simp only [outcome] at connected
      obtain rfl := Except.ok.inj connected
      rfl
  | failed =>
      simp only [outcome] at connected
      obtain rfl := Except.ok.inj connected
      rfl

theorem stopInLoop_leaves (stopped : socket.stopInLoop = .ok next) :
    socket.Leaves next [] ∧ next.connectState =
      if socket.connectState = .Connecting then .Stopped
      else socket.connectState := by
  by_cases connecting : socket.connectState = .Connecting
  · rw [stopInLoop, if_pos connecting] at stopped
    obtain ⟨middle, removed, result⟩ := bind_eq_ok stopped
    obtain ⟨state, trace, descriptors⟩ := deregister_kept removed
    obtain rfl := Except.ok.inj result
    refine ⟨⟨?_, ?_⟩, ?_⟩
    · exact trace.trans (List.append_nil _).symm
    · intro fd party _ held
      have before := holder_of_close held
      rwa [descriptors] at before
    · rw [if_pos connecting]
      exact state
  · obtain rfl := Except.ok.inj
      ((stopInLoop_other connecting).symm.trans stopped)
    exact ⟨⟨by simp, fun _ _ _ held => held⟩, (if_neg connecting).symm⟩

theorem handleWrite_leaves {check : SocketCheck} {given : Option Int}
    (handled : socket.handleWrite check = .ok (next, given)) :
    socket.Leaves next (given.map ConnectEvent.newConnection).toList := by
  by_cases connecting : socket.connectState = .Connecting
  · rw [handleWrite, if_pos connecting] at handled
    obtain ⟨middle, removed, result⟩ := bind_eq_ok handled
    obtain ⟨_, trace, descriptors⟩ := deregister_kept removed
    have retried : socket.Leaves middle.retry [] := by
      refine ⟨trace.trans (List.append_nil _).symm, ?_⟩
      intro fd party _ held
      have before := holder_of_close held
      rwa [descriptors] at before
    split at result
    · cases result
      exact retried
    · split at result
      · cases result
        exact retried
      · cases result
        refine ⟨congrArg (· ++ _) trace, ?_⟩
        intro fd party _ held
        rwa [← descriptors]
  · cases (handleWrite_other connecting).symm.trans handled
    exact ⟨(List.append_nil _).symm, fun _ _ _ held => held⟩

end Leaving

end ConnectSocket

/-- What the other handlers of the loop and their owners do, each with its own
descriptors. -/
inductive OutsideAction where
  | opens (fd : Int)
  | watches (fd : Int) (events : EventMask)
  | unwatches (fd : Int)
  | closes (fd : Int)
  deriving DecidableEq, Repr

namespace ConnectSocket

/-- A handler that another part of the program has in the poller. -/
def watcher (fd : Int) (events : EventMask) : FdHandler :=
  { fd, events, revents := kNoneEvent, stateInPoll := .Added }

def outside (socket : ConnectSocket) (party : Party) :
    OutsideAction → ConnectSocket
  | .opens fd => { socket with descriptors := socket.descriptors.adopt party fd }
  | .watches fd events =>
      { socket with poller := socket.poller.record party (watcher fd events) }
  | .unwatches fd =>
      { socket with poller := socket.poller.record party (.new fd) }
  | .closes fd =>
      { socket with
        poller := socket.poller.closed fd
        descriptors := socket.descriptors.release party fd }

/-- Others only touch what they hold, and close nothing that they still watch. -/
def Allows (socket : ConnectSocket) (party : Party) : OutsideAction → Prop
  | .opens fd => 0 ≤ fd ∧ socket.descriptors.holder fd = none ∧
      party = .others
  | .watches fd _ => socket.descriptors.holder fd = some party
  | .unwatches fd => socket.descriptors.holder fd = some party
  | .closes fd => socket.descriptors.holder fd = some party ∧
      socket.poller.fd2handler fd = none

instance decidableAllows (socket : ConnectSocket) (party : Party)
    (action : OutsideAction) : Decidable (socket.Allows party action) := by
  cases action <;> unfold Allows <;> infer_instance

variable {socket : ConnectSocket} {party : Party} {action : OutsideAction}

theorem outside_tidy (tidy : TidyParts socket.poller socket.descriptors)
    (allowed : socket.Allows party action) :
    TidyParts (socket.outside party action).poller
      (socket.outside party action).descriptors := by
  cases action with
  | opens fd => exact tidy.adopt allowed.2.1
  | watches fd events =>
      have held : socket.descriptors.holder fd = some party := allowed
      exact tidy.record held
  | unwatches fd =>
      have held : socket.descriptors.holder fd = some party := allowed
      exact tidy.record held
  | closes fd => exact tidy.release allowed.1 allowed.2

theorem outside_holder {fd : Int} (allowed : socket.Allows party action)
    {holder : Party} (apart : party ≠ holder) :
    (socket.outside party action).descriptors.holder fd = some holder ↔
      socket.descriptors.holder fd = some holder := by
  cases action with
  | opens other =>
      simp only [outside, Handles.holder_adopt]
      by_cases here : fd = other
      · simp [here, allowed.2.1, apart]
      · rw [write_other here]
  | watches other events => rfl
  | unwatches other => rfl
  | closes other =>
      simp only [outside, Handles.holder_release]
      by_cases here : fd = other
      · simp [here, allowed.1, apart]
      · rw [write_other here]

theorem outside_mirrors {this : Party} {handler : FdHandler}
    {last : EventMask} (allowed : socket.Allows party action)
    (apart : party ≠ this)
    (held : socket.descriptors.holder handler.fd = some this)
    (mirrors : Mirrors socket.poller this handler last) :
    Mirrors (socket.outside party action).poller this handler last := by
  have elsewhere : ∀ fd, socket.descriptors.holder fd = some party →
      handler.fd ≠ fd := by
    rintro fd theirs rfl
    exact apart (Option.some.inj (theirs.symm.trans held))
  cases action with
  | opens fd => exact mirrors
  | watches fd events => exact mirrors.record_other (elsewhere fd allowed)
  | unwatches fd => exact mirrors.record_other (elsewhere fd allowed)
  | closes fd =>
      exact ⟨mirrors.known,
        (write_other (elsewhere fd allowed.1)).trans mirrors.watched⟩

theorem outside_kept (socket : ConnectSocket) (party : Party)
    (action : OutsideAction) :
    (socket.outside party action).handler = socket.handler ∧
      (socket.outside party action).connectState = socket.connectState ∧
      (socket.outside party action).trace = socket.trace ∧
      (socket.outside party action).pendingFunctors =
        socket.pendingFunctors := by
  cases action with
  | opens fd => exact ⟨rfl, rfl, rfl, rfl⟩
  | watches fd events => exact ⟨rfl, rfl, rfl, rfl⟩
  | unwatches fd => exact ⟨rfl, rfl, rfl, rfl⟩
  | closes fd => exact ⟨rfl, rfl, rfl, rfl⟩

theorem Idle.outside (idle : socket.Idle) (theirs : party ≠ .connectSocket)
    (allowed : socket.Allows party action) :
    (socket.outside party action).Idle := by
  obtain ⟨handler, _, _, _⟩ := socket.outside_kept party action
  constructor
  · exact outside_tidy idle.tidy allowed
  · rw [handler, idle.new]
  · rw [handler, idle.silent]
  · intro fd held
    exact idle.unheld fd ((outside_holder allowed theirs).mp held)

theorem Attached.outside (attached : socket.Attached)
    (theirs : party ≠ .connectSocket)
    (allowed : socket.Allows party action) :
    (socket.outside party action).Attached := by
  obtain ⟨handler, _, _, _⟩ := socket.outside_kept party action
  constructor
  · exact outside_tidy attached.tidy allowed
  · rw [handler, attached.added]
  · rw [handler, attached.writing]
  · rw [handler]
    exact (outside_holder allowed theirs).mpr attached.held
  · intro fd held
    rw [handler]
    exact attached.alone fd ((outside_holder allowed theirs).mp held)
  · rw [handler]
    exact outside_mirrors allowed theirs attached.held attached.mirrors

theorem Ready.outside (ready : socket.Ready) (theirs : party ≠ .connectSocket)
    (allowed : socket.Allows party action) :
    (socket.outside party action).Ready := by
  obtain ⟨_, connectState, _, _⟩ := socket.outside_kept party action
  rcases ready with ⟨connecting, attached⟩ | ⟨other, idle⟩
  · exact .inl ⟨connectState.trans connecting,
      attached.outside theirs allowed⟩
  · exact .inr ⟨connectState ▸ other, idle.outside theirs allowed⟩

end ConnectSocket

end Muduo
