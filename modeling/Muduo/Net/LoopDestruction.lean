import Muduo.Net.EpollRuns
import Muduo.Net.TimerThreads

/-!
# The end of an event loop

The members of an `EventLoop` that watch a descriptor of their own, the poller that
they share with the other handlers of the loop, and the destructors in the order in
which the members go.  `~TimerQueue` hands its handler to the poller as it is, which
is still interested in reading.
-/

namespace Muduo

open Library

/-- The handlers of a loop: its two members and those of its users. -/
inductive HandlerAddress (Other : Type) where
  | timerQueue
  | wakeupFd
  | other (address : Other)
  deriving DecidableEq

/-- The descriptors of the handlers.  Those of the two members stay open as long as
the loop lives, so nobody else has them. -/
structure LoopDescriptors (Other : Type) where
  timerfd : Int
  eventfd : Int
  other : Other → Int
  apart : timerfd ≠ eventfd
  timerfd_own : ∀ address, other address ≠ timerfd
  eventfd_own : ∀ address, other address ≠ eventfd

def LoopDescriptors.fd {Other : Type} (descriptors : LoopDescriptors Other) :
    HandlerAddress Other → Int
  | .timerQueue => descriptors.timerfd
  | .wakeupFd => descriptors.eventfd
  | .other address => descriptors.other address

/-- `registry` holds the poller and the handlers, `eventfd` is the counter of the
kernel. -/
structure LoopMembers (Other : Type) where
  looping : Bool
  eventfd : Nat
  registry : Registry (HandlerAddress Other)
  timers : TimerThreads

/-- `setRevents` is a poll that reports a handler; `callOther` and `destroyOther` are
what its owner does with another handler. -/
inductive LoopUse (Other : Type) where
  | loop
  | endLoop
  | setRevents (address : HandlerAddress Other) (revents : EventMask)
  | timers (action : TimersAction)
  | wakeupWrite
  | wakeupRead
  | callOther (address : Other) (call : HandlerCall)
  | destroyOther (address : Other)

/-- What only `loop` does: running functors and handling the timer. -/
def TimersAction.ofLoop : TimersAction → Bool
  | .swap | .runFunctor => true
  | .handleRead (.setClock _) => false
  | .handleRead _ => true
  | .newTimer _ _ _ _ | .runAdd _ | .queueAdd _ | .returnId _ | .cancel _ _ =>
      false

section Destructors

variable {Other : Type} [DecidableEq Other]

/-- The members while they are destroyed.  `removed` and `closed` are the calls of
`removeHandler` that returned and of `close`, by descriptor. -/
structure Teardown (Other : Type) where
  registry : Registry (HandlerAddress Other)
  queue : TimerQueue
  removed : List Int
  closed : List Int

namespace Teardown

def fd (teardown : Teardown Other) (address : HandlerAddress Other) : Int :=
  (teardown.registry.handlers address).fd

/-- `updateInPoll(DelEvent)`. -/
def deregister (teardown : Teardown Other) (address : HandlerAddress Other) :
    Checked (Teardown Other) := do
  let registry ← teardown.registry.updateInPoll address .DelEvent
  return { teardown with
    registry, removed := teardown.removed ++ [teardown.fd address] }

def close (teardown : Teardown Other) (address : HandlerAddress Other) :
    Teardown Other :=
  { teardown with
    registry := { teardown.registry with
      poller := teardown.registry.poller.closed (teardown.fd address) }
    closed := teardown.closed ++ [teardown.fd address] }

/-- `~FdHandler`, which is all that `~WakeupFd` does. -/
def fdHandler (teardown : Teardown Other) (address : HandlerAddress Other) :
    Checked (Teardown Other) := do
  let registry ← teardown.registry.call address .disableAll
  let teardown ← { teardown with registry }.deregister address
  return teardown.close address

/-- `~TimerQueue` with the destructor of its base. -/
def timerQueue (teardown : Teardown Other) : Checked (Teardown Other) := do
  let teardown ← teardown.deregister .timerQueue
  let teardown := teardown.close .timerQueue
  let queue ← teardown.queue.timers.items.foldlM
    (fun queue entry => queue.delete entry.second) teardown.queue
  { teardown with queue }.fdHandler .timerQueue

end Teardown

namespace LoopMembers

/-- The constructors of the members and the end of the constructor of the loop. -/
def construct (descriptors : LoopDescriptors Other) (clock : Timestamp) :
    Checked (LoopMembers Other) := do
  let registry := Registry.new descriptors.fd
  let registry ← registry.call .timerQueue .enableReading
  let registry ← registry.call .timerQueue (.updateInPoll .AddEvent)
  let registry ← registry.call .wakeupFd .enableReading
  let registry ← registry.call .wakeupFd (.updateInPoll .AddEvent)
  return { looping := false, eventfd := 0, registry, timers := .new clock }

/-- `~EventLoop`: `wakeupFd_` and `timerQueue_` go before the poller, whose own
destructor only closes its own descriptor. -/
def destroy (loop : LoopMembers Other) : Checked (Teardown Other) := do
  let teardown : Teardown Other :=
    { registry := loop.registry, queue := loop.timers.loop.queue
      removed := [], closed := [] }
  let teardown ← teardown.fdHandler .wakeupFd
  teardown.timerQueue

/-- Every assert holds, either descriptor is removed and closed once, and so is every
timer in the queue deleted. -/
def DestroyedCleanly (descriptors : LoopDescriptors Other)
    (loop : LoopMembers Other) : Prop :=
  ∃ teardown, loop.destroy = .ok teardown ∧
    (∀ fd ∈ [descriptors.timerfd, descriptors.eventfd],
      teardown.removed.count fd = 1 ∧ teardown.closed.count fd = 1) ∧
    teardown.queue.deleted.map TimerId.timer =
      loop.timers.loop.queue.deleted.map TimerId.timer ++
        loop.timers.loop.queue.timers.items.map Entry.second

/-- A call of `loop` while it loops returns at once, and a call of it ends between two
polls. -/
def Enabled (mayMove : Timestamp → Timestamp → Prop)
    (loop : LoopMembers Other) : LoopUse Other → Prop
  | .loop => loop.looping = false
  | .endLoop => loop.looping = true ∧ loop.timers.loop.phase = .idle ∧
      loop.timers.functors.batch = []
  | .setRevents address _ => loop.looping = true ∧
      loop.registry.poller.interest (loop.registry.handlers address).fd ≠ none
  | .timers action => loop.timers.Enabled mayMove action ∧
      (action.ofLoop = true → loop.looping = true)
  | .wakeupRead => loop.looping = true
  | .wakeupWrite | .callOther _ _ | .destroyOther _ => True

def step (loop : LoopMembers Other) :
    LoopUse Other → Checked (LoopMembers Other)
  | .loop => .ok { loop with looping := true }
  | .endLoop => .ok { loop with looping := false }
  | .setRevents address revents => .ok { loop with
      registry := loop.registry.setHandler address
        { loop.registry.handlers address with revents } }
  | .timers action => do
      let timers ← loop.timers.step action
      return { loop with timers }
  | .wakeupWrite => .ok { loop with eventfd := loop.eventfd + 1 }
  | .wakeupRead => .ok { loop with eventfd := 0 }
  | .callOther address call => do
      let registry ← loop.registry.call (.other address) call
      return { loop with registry }
  | .destroyOther address => do
      let teardown : Teardown Other :=
        { registry := loop.registry, queue := loop.timers.loop.queue
          removed := [], closed := [] }
      let teardown ← teardown.fdHandler (.other address)
      return { loop with registry := teardown.registry }

end LoopMembers

/-- The life of a loop in the hands of its users. -/
def loopMembersMachine (mayMove : Timestamp → Timestamp → Prop) :
    Machine (LoopMembers Other) (LoopUse Other) Fault where
  enabled := LoopMembers.Enabled mayMove
  step := LoopMembers.step

end Destructors

namespace Epoll

variable {Address : Type}

/-- The poller and the kernel are changed under one descriptor at most. -/
structure Beside (fd : Int) (before after : Epoll Address) : Prop where
  known : ∀ other, other ≠ fd →
    after.fd2handler other = before.fd2handler other
  watched : ∀ other, other ≠ fd → after.interest other = before.interest other

theorem Beside.refl (fd : Int) (poller : Epoll Address) :
    Beside fd poller poller :=
  ⟨fun _ _ => rfl, fun _ _ => rfl⟩

theorem Beside.trans {fd : Int} {first second third : Epoll Address}
    (before : Beside fd first second) (after : Beside fd second third) :
    Beside fd first third where
  known other apart := (after.known other apart).trans (before.known other apart)
  watched other apart :=
    (after.watched other apart).trans (before.watched other apart)

theorem beside_write_known {poller : Epoll Address} {fd : Int}
    {entry : Option Address} :
    Beside fd poller
      { poller with fd2handler := write poller.fd2handler fd entry } where
  known _ apart := write_other apart
  watched _ _ := rfl

theorem closed_beside (poller : Epoll Address) (fd : Int) :
    Beside fd poller (poller.closed fd) where
  known _ _ := rfl
  watched _ apart := write_other apart

theorem update_beside {poller next : Epoll Address}
    {operation : EpollOperation} {this : Address} {handler : FdHandler}
    (updated : poller.update operation this handler = .ok next) :
    Beside handler.fd poller next := by
  unfold update at updated
  split at updated
  · cases updated
    exact ⟨fun _ _ => rfl, fun _ apart => write_other apart⟩
  · cases updated

variable [DecidableEq Address]
variable {poller next : Epoll Address} {this : Address}
variable {handler after : FdHandler}

theorem removeHandler_beside
    (removed : poller.removeHandler this handler = .ok (next, after)) :
    Beside handler.fd poller next ∧ after.fd = handler.fd := by
  obtain ⟨_, _, rest⟩ := bind_eq_ok removed
  obtain ⟨_, _, rest⟩ := bind_eq_ok rest
  obtain ⟨_, _, rest⟩ := bind_eq_ok rest
  simp only at rest
  split at rest
  · obtain ⟨updated, deleted, result⟩ := bind_eq_ok rest
    cases result
    exact ⟨beside_write_known.trans (update_beside deleted), rfl⟩
  · cases rest
    exact ⟨beside_write_known, rfl⟩

omit [DecidableEq Address] in
theorem addHandler_beside
    (added : poller.addHandler this handler = .ok (next, after)) :
    Beside handler.fd poller next ∧ after.fd = handler.fd := by
  unfold addHandler at added
  split at added
  · obtain ⟨_, _, rest⟩ := bind_eq_ok added
    obtain ⟨known, recorded, rest⟩ := bind_eq_ok rest
    cases recorded
    obtain ⟨updated, watched, result⟩ := bind_eq_ok rest
    cases result
    exact ⟨beside_write_known.trans (update_beside watched), rfl⟩
  · obtain ⟨known, recorded, rest⟩ := bind_eq_ok added
    cases recorded
    obtain ⟨updated, watched, result⟩ := bind_eq_ok rest
    cases result
    exact ⟨update_beside watched, rfl⟩

theorem modifyHandler_beside
    (modified : poller.modifyHandler this handler = .ok (next, after)) :
    Beside handler.fd poller next ∧ after.fd = handler.fd := by
  obtain ⟨_, _, rest⟩ := bind_eq_ok modified
  obtain ⟨_, _, rest⟩ := bind_eq_ok rest
  split at rest
  · obtain ⟨updated, deleted, result⟩ := bind_eq_ok rest
    cases result
    exact ⟨update_beside deleted, rfl⟩
  · obtain ⟨updated, changed, result⟩ := bind_eq_ok rest
    cases result
    exact ⟨update_beside changed, rfl⟩

theorem updateHandler_beside
    (updated : poller.updateHandler this handler = .ok (next, after)) :
    Beside handler.fd poller next ∧ after.fd = handler.fd := by
  unfold updateHandler at updated
  split at updated
  · exact addHandler_beside updated
  · exact addHandler_beside updated
  · exact modifyHandler_beside updated

theorem updateInPoll_beside {flag : OptFlag}
    (updated : poller.updateInPoll this handler flag = .ok (next, after)) :
    Beside handler.fd poller next ∧ after.fd = handler.fd := by
  cases flag with
  | AddEvent =>
      obtain ⟨_, _, result⟩ := bind_eq_ok updated
      exact updateHandler_beside result
  | ModEvent =>
      obtain ⟨_, _, result⟩ := bind_eq_ok updated
      exact updateHandler_beside result
  | DelEvent => exact removeHandler_beside updated

end Epoll

namespace Registry

variable {Address : Type} [DecidableEq Address]

/-- One handler, its entry in the poller and what the kernel watches for it are as
they were. -/
structure Keeps (address : Address) (before after : Registry Address) : Prop where
  handler : after.handlers address = before.handlers address
  known : after.poller.fd2handler (before.handlers address).fd =
    before.poller.fd2handler (before.handlers address).fd
  watched : after.poller.interest (before.handlers address).fd =
    before.poller.interest (before.handlers address).fd

omit [DecidableEq Address] in
theorem Keeps.trans {address : Address} {first second third : Registry Address}
    (before : Keeps address first second) (after : Keeps address second third) :
    Keeps address first third where
  handler := after.handler.trans before.handler
  known := by
    have same := after.known
    rw [before.handler] at same
    exact same.trans before.known
  watched := by
    have same := after.watched
    rw [before.handler] at same
    exact same.trans before.watched

variable {registry next : Registry Address} {address other : Address}

@[simp] theorem handlers_setHandler (handler : FdHandler) :
    (registry.setHandler address handler).handlers address = handler :=
  Function.update_self ..

theorem of_updateInPoll {flag : OptFlag}
    (updated : registry.updateInPoll address flag = .ok next) :
    registry.poller.updateInPoll address (registry.handlers address) flag =
      .ok (next.poller, next.handlers address) := by
  obtain ⟨⟨poller, after⟩, changed, result⟩ := bind_eq_ok updated
  cases result
  rw [changed]
  simp

theorem setHandler_keeps (different : address ≠ other) (handler : FdHandler) :
    Keeps address registry (registry.setHandler other handler) where
  handler := Function.update_of_ne different _ _
  known := rfl
  watched := rfl

/-- A call on one handler keeps any other handler that has another descriptor. -/
theorem call_keeps (different : address ≠ other)
    (apart : (registry.handlers address).fd ≠ (registry.handlers other).fd)
    {call : HandlerCall} (called : registry.call other call = .ok next) :
    Keeps address registry next := by
  cases call with
  | enableReading =>
      cases called
      exact setHandler_keeps different _
  | enableWriting =>
      cases called
      exact setHandler_keeps different _
  | disableReading =>
      cases called
      exact setHandler_keeps different _
  | disableWriting =>
      cases called
      exact setHandler_keeps different _
  | disableAll =>
      cases called
      exact setHandler_keeps different _
  | updateInPoll flag =>
      obtain ⟨⟨poller, after⟩, updated, result⟩ := bind_eq_ok called
      cases result
      obtain ⟨beside, _⟩ := Epoll.updateInPoll_beside updated
      exact ⟨Function.update_of_ne different _ _, beside.known _ apart,
        beside.watched _ apart⟩

theorem call_fd {call : HandlerCall}
    (called : registry.call other call = .ok next) :
    (next.handlers address).fd = (registry.handlers address).fd := by
  have updated : ∀ handler : FdHandler,
      handler.fd = (registry.handlers other).fd →
      (Function.update registry.handlers other handler address).fd =
        (registry.handlers address).fd := by
    intro handler fd
    by_cases same : address = other
    · rw [same, Function.update_self, fd]
    · rw [Function.update_of_ne same]
  cases call with
  | enableReading =>
      cases called
      exact updated _ rfl
  | enableWriting =>
      cases called
      exact updated _ rfl
  | disableReading =>
      cases called
      exact updated _ rfl
  | disableWriting =>
      cases called
      exact updated _ rfl
  | disableAll =>
      cases called
      exact updated _ rfl
  | updateInPoll flag =>
      obtain ⟨⟨poller, after⟩, changed, result⟩ := bind_eq_ok called
      cases result
      exact updated after (Epoll.updateInPoll_beside changed).2

end Registry

namespace LoopMembers

variable {Other : Type} [DecidableEq Other]
variable {descriptors : LoopDescriptors Other}

omit [DecidableEq Other] in
theorem fd_members : descriptors.fd .timerQueue ≠ descriptors.fd .wakeupFd :=
  descriptors.apart

omit [DecidableEq Other] in
theorem fd_timerQueue_other (other : Other) :
    descriptors.fd .timerQueue ≠ descriptors.fd (.other other) :=
  (descriptors.timerfd_own other).symm

omit [DecidableEq Other] in
theorem fd_wakeupFd_other (other : Other) :
    descriptors.fd .wakeupFd ≠ descriptors.fd (.other other) :=
  (descriptors.eventfd_own other).symm

/-- The poller and the kernel watch a handler for reading. -/
structure Watches (registry : Registry (HandlerAddress Other))
    (address : HandlerAddress Other) : Prop where
  reading : (registry.handlers address).isReading = true
  added : (registry.handlers address).stateInPoll = .Added
  known : registry.poller.fd2handler (registry.handlers address).fd = some address
  watched : registry.poller.interest (registry.handlers address).fd ≠ none

variable {registry next : Registry (HandlerAddress Other)}
variable {address : HandlerAddress Other}

omit [DecidableEq Other] in
theorem Watches.keeps (watches : Watches registry address)
    (keeps : registry.Keeps address next) : Watches next address where
  reading := by rw [keeps.handler, watches.reading]
  added := by rw [keeps.handler, watches.added]
  known := by rw [keeps.handler, keeps.known, watches.known]
  watched := by
    rw [keeps.handler, keeps.watched]
    exact watches.watched

theorem Watches.setRevents (watches : Watches registry address)
    (reported : HandlerAddress Other) (revents : EventMask) :
    Watches (registry.setHandler reported
      { registry.handlers reported with revents }) address := by
  by_cases same : address = reported
  · subst same
    have handler : (registry.setHandler address
        { registry.handlers address with revents }).handlers address =
          { registry.handlers address with revents } := Function.update_self ..
    constructor
    · rw [handler]
      exact watches.reading
    · rw [handler]
      exact watches.added
    · rw [handler]
      exact watches.known
    · rw [handler]
      exact watches.watched
  · exact watches.keeps (Registry.setHandler_keeps same _)

theorem keeps_of_call {called : HandlerAddress Other}
    (fd : ∀ address, (registry.handlers address).fd = descriptors.fd address)
    (apart : descriptors.fd address ≠ descriptors.fd called)
    {call : HandlerCall} (result : registry.call called call = .ok next) :
    registry.Keeps address next := by
  apply Registry.call_keeps ?_ ?_ result
  · intro same
    exact apart (congrArg descriptors.fd same)
  · rw [fd, fd]
    exact apart

/-- Both members are watched all the time, whatever happens to other handlers. -/
structure Inv (descriptors : LoopDescriptors Other)
    (registry : Registry (HandlerAddress Other)) : Prop where
  fd : ∀ address, (registry.handlers address).fd = descriptors.fd address
  timerQueue : Watches registry .timerQueue
  wakeupFd : Watches registry .wakeupFd

theorem Inv.call_other (inv : Inv descriptors registry) {other : Other}
    {call : HandlerCall} (called : registry.call (.other other) call = .ok next) :
    Inv descriptors next where
  fd address := (Registry.call_fd called).trans (inv.fd address)
  timerQueue := inv.timerQueue.keeps
    (keeps_of_call inv.fd (fd_timerQueue_other other) called)
  wakeupFd := inv.wakeupFd.keeps
    (keeps_of_call inv.fd (fd_wakeupFd_other other) called)

omit [DecidableEq Other] in
theorem Inv.close_other (inv : Inv descriptors registry) (other : Other) :
    Inv descriptors { registry with
      poller := registry.poller.closed (registry.handlers (.other other)).fd } := by
  have beside := registry.poller.closed_beside
    (registry.handlers (.other other)).fd
  constructor
  · exact inv.fd
  · apply inv.timerQueue.keeps
    refine ⟨rfl, rfl, beside.watched _ ?_⟩
    rw [inv.fd, inv.fd]
    exact (descriptors.timerfd_own other).symm
  · apply inv.wakeupFd.keeps
    refine ⟨rfl, rfl, beside.watched _ ?_⟩
    rw [inv.fd, inv.fd]
    exact (descriptors.eventfd_own other).symm

/-- Destroying another handler is two calls on it and the end of its descriptor. -/
theorem Inv.destroy_other {teardown after : Teardown Other}
    (inv : Inv descriptors teardown.registry) {other : Other}
    (destroyed : teardown.fdHandler (.other other) = .ok after) :
    Inv descriptors after.registry := by
  obtain ⟨silent, disabled, rest⟩ := bind_eq_ok destroyed
  obtain ⟨removed, deregistered, result⟩ := bind_eq_ok rest
  obtain ⟨registry, deleted, gone⟩ := bind_eq_ok deregistered
  cases gone
  cases result
  have silenced : Inv descriptors silent := inv.call_other disabled
  have called : silent.call (.other other) (.updateInPoll .DelEvent) =
      .ok registry := deleted
  exact (silenced.call_other called).close_other other

/-- A handler is not known to the poller. -/
structure Fresh (registry : Registry (HandlerAddress Other))
    (address : HandlerAddress Other) : Prop where
  silent : (registry.handlers address).events = kNoneEvent
  state : (registry.handlers address).stateInPoll = .New
  known : registry.poller.fd2handler (registry.handlers address).fd = none
  watched : registry.poller.interest (registry.handlers address).fd = none

omit [DecidableEq Other] in
theorem Fresh.keeps (fresh : Fresh registry address)
    (keeps : registry.Keeps address next) : Fresh next address where
  silent := by rw [keeps.handler, fresh.silent]
  state := by rw [keeps.handler, fresh.state]
  known := by rw [keeps.handler, keeps.known, fresh.known]
  watched := by rw [keeps.handler, keeps.watched, fresh.watched]

theorem Fresh.watches (fresh : Fresh registry address)
    {enabled : Registry (HandlerAddress Other)}
    (reading : registry.call address .enableReading = .ok enabled)
    (added : enabled.call address (.updateInPoll .AddEvent) = .ok next) :
    Watches next address := by
  cases reading
  have updated := Registry.of_updateInPoll added
  rw [Registry.handlers_setHandler] at updated
  let handler := (registry.handlers address).enableReading
  have state : handler.stateInPoll = .New := fresh.state
  have mirrors : Mirrors registry.poller address handler kNoneEvent := by
    constructor
    · rw [state]
      exact fresh.known
    · rw [state]
      exact fresh.watched
  have prepared : registry.poller.updateInPoll address handler .AddEvent =
      .ok (registry.poller.record address { handler with stateInPoll := .Added },
        { handler with stateInPoll := .Added }) := by
    rw [mirrors.updateInPoll_eq (by simp)]
    simp [FdHandler.updateInPoll, FdHandler.updateHandler, state, pure,
      Except.pure, Except.map]
  obtain ⟨poller, after⟩ := Prod.mk.inj
    (Except.ok.inj (updated.symm.trans prepared))
  have events : handler.events = kReadEvent := by
    have none : (registry.handlers address).events = kNoneEvent := fresh.silent
    simp [handler, FdHandler.enableReading, none, kNoneEvent]
  constructor
  · rw [after]
    simp only [FdHandler.isReading, events]
    decide
  · rw [after]
  · rw [poller, after]
    exact write_same
  · rw [poller, after]
    simp [Epoll.record, StateInPoll.event]

theorem construct_inv {clock : Timestamp} {start : LoopMembers Other}
    (constructed : construct descriptors clock = .ok start) :
    Inv descriptors start.registry := by
  obtain ⟨first, reading, rest⟩ := bind_eq_ok constructed
  obtain ⟨second, added, rest⟩ := bind_eq_ok rest
  obtain ⟨third, readingToo, rest⟩ := bind_eq_ok rest
  obtain ⟨last, addedToo, result⟩ := bind_eq_ok rest
  cases result
  have newFd : ∀ address, ((Registry.new descriptors.fd).handlers address).fd =
      descriptors.fd address := fun _ => rfl
  have firstFd : ∀ address, (first.handlers address).fd =
      descriptors.fd address := fun address => Registry.call_fd reading
  have secondFd : ∀ address, (second.handlers address).fd =
      descriptors.fd address :=
    fun address => (Registry.call_fd added).trans (firstFd address)
  have thirdFd : ∀ address, (third.handlers address).fd =
      descriptors.fd address :=
    fun address => (Registry.call_fd readingToo).trans (secondFd address)
  have fresh : ∀ address, Fresh (Registry.new descriptors.fd) address :=
    fun address => ⟨rfl, rfl, rfl, rfl⟩
  have untouched : (Registry.new descriptors.fd).Keeps .wakeupFd second :=
    (keeps_of_call newFd fd_members.symm reading).trans
      (keeps_of_call firstFd fd_members.symm added)
  have kept : second.Keeps .timerQueue last :=
    (keeps_of_call secondFd fd_members readingToo).trans
      (keeps_of_call thirdFd fd_members addedToo)
  constructor
  · intro address
    exact (Registry.call_fd addedToo).trans (thirdFd address)
  · exact ((fresh .timerQueue).watches reading added).keeps kept
  · exact ((fresh .wakeupFd).keeps untouched).watches readingToo addedToo

theorem step_inv {loop after : LoopMembers Other} {use : LoopUse Other}
    (inv : Inv descriptors loop.registry) (stepped : loop.step use = .ok after) :
    Inv descriptors after.registry := by
  cases use with
  | loop =>
      cases stepped
      exact inv
  | endLoop =>
      cases stepped
      exact inv
  | setRevents address revents =>
      cases stepped
      constructor
      · intro other
        by_cases same : other = address
        · subst same
          have handler : (loop.registry.setHandler other
              { loop.registry.handlers other with revents }).handlers other =
                { loop.registry.handlers other with revents } :=
            Function.update_self ..
          rw [handler]
          exact inv.fd other
        · rw [(Registry.setHandler_keeps same _).handler]
          exact inv.fd other
      · exact inv.timerQueue.setRevents address revents
      · exact inv.wakeupFd.setRevents address revents
  | timers action =>
      obtain ⟨timers, _, result⟩ := bind_eq_ok stepped
      cases result
      exact inv
  | wakeupWrite =>
      cases stepped
      exact inv
  | wakeupRead =>
      cases stepped
      exact inv
  | callOther address call =>
      obtain ⟨registry, called, result⟩ := bind_eq_ok stepped
      cases result
      exact inv.call_other called
  | destroyOther address =>
      obtain ⟨teardown, destroyed, result⟩ := bind_eq_ok stepped
      cases result
      exact Inv.destroy_other inv destroyed

/-- `~WakeupFd` removes and closes its descriptor once. -/
theorem Inv.destroy_wakeupFd {teardown : Teardown Other}
    (inv : Inv descriptors teardown.registry) :
    ∃ after, teardown.fdHandler .wakeupFd = .ok after ∧
      after.removed = teardown.removed ++ [descriptors.eventfd] ∧
      after.closed = teardown.closed ++ [descriptors.eventfd] ∧
      Watches after.registry .timerQueue := by
  let handler := (teardown.registry.handlers .wakeupFd).disableAll
  let silent := teardown.registry.setHandler .wakeupFd handler
  have known : teardown.registry.poller.fd2handler handler.fd =
      some .wakeupFd := inv.wakeupFd.known
  have watched : teardown.registry.poller.interest handler.fd ≠ none :=
    inv.wakeupFd.watched
  have added : handler.stateInPoll = .Added := inv.wakeupFd.added
  have none : handler.isNoneEvent = true := beq_self_eq_true kNoneEvent
  have accepted : ∃ poller after, teardown.registry.poller.removeHandler .wakeupFd
      handler = .ok (poller, after) := by
    simp [Epoll.removeHandler, Epoll.update, EpollOperation.Fits, known, none,
      added, watched, pure, Except.pure]
  obtain ⟨poller, after, removed⟩ := accepted
  have disabled : teardown.registry.call .wakeupFd .disableAll = .ok silent := rfl
  obtain ⟨last, deleted⟩ : ∃ last, silent.updateInPoll .wakeupFd .DelEvent =
      .ok last := by
    simp only [silent, Registry.updateInPoll, Registry.handlers_setHandler,
      Epoll.updateInPoll]
    have unchanged : (teardown.registry.setHandler .wakeupFd handler).poller =
        teardown.registry.poller := rfl
    rw [unchanged, removed]
    exact ⟨_, rfl⟩
  have called : silent.call .wakeupFd (.updateInPoll .DelEvent) = .ok last :=
    deleted
  have silentFd : ∀ address, (silent.handlers address).fd =
      descriptors.fd address :=
    fun address => (Registry.call_fd disabled).trans (inv.fd address)
  have lastFd : (last.handlers .wakeupFd).fd = descriptors.eventfd :=
    (Registry.call_fd called).trans (silentFd .wakeupFd)
  have eventfd : (silent.handlers .wakeupFd).fd = descriptors.eventfd :=
    silentFd .wakeupFd
  have kept : teardown.registry.Keeps .timerQueue last :=
    (keeps_of_call inv.fd fd_members disabled).trans
      (keeps_of_call silentFd fd_members called)
  have watches := inv.timerQueue.keeps kept
  have beside := last.poller.closed_beside (last.handlers .wakeupFd).fd
  have apart : (last.handlers .timerQueue).fd ≠ (last.handlers .wakeupFd).fd := by
    rw [kept.handler, inv.fd, lastFd]
    exact descriptors.apart
  let gone : Teardown Other := { teardown with
    registry := last, removed := teardown.removed ++ [descriptors.eventfd] }
  refine ⟨gone.close .wakeupFd, ?_, rfl, ?_, ?_⟩
  · simp only [Teardown.fdHandler, disabled, ok_bind, Teardown.deregister, deleted,
      Teardown.fd, eventfd]
    rfl
  · have fd : gone.fd .wakeupFd = descriptors.eventfd := lastFd
    simp only [Teardown.close, fd]
    rfl
  · apply watches.keeps
    exact ⟨rfl, rfl, beside.watched _ apart⟩

/-- The handler of a timer queue is refused, since it is still interested. -/
theorem Watches.deregister_fails {teardown : Teardown Other}
    (watches : Watches teardown.registry .timerQueue) :
    teardown.timerQueue = .error .removeHandler := by
  have interested : (teardown.registry.handlers .timerQueue).isNoneEvent =
      false := FdHandler.isNoneEvent_of_isReading watches.reading
  have refused : teardown.registry.poller.removeHandler .timerQueue
      (teardown.registry.handlers .timerQueue) = .error .removeHandler := by
    simp [Epoll.removeHandler, watches.known, interested]
  have deregistered : teardown.deregister .timerQueue =
      .error .removeHandler := by
    simp only [Teardown.deregister, Registry.updateInPoll, Epoll.updateInPoll,
      refused]
    rfl
  simp only [Teardown.timerQueue, deregistered]
  rfl

variable {mayMove : Timestamp → Timestamp → Prop} {clock : Timestamp}
variable {start loop : LoopMembers Other} {uses : List (LoopUse Other)}

/-- However a loop was used, and with any timers in its queue, its destruction fails
an assert of the poller when it comes to the timer queue, with `wakeupFd_` gone. -/
theorem destroy_asserts (constructed : construct descriptors clock = .ok start)
    (run : (loopMembersMachine mayMove).Run start uses loop) :
    loop.destroy = .error .removeHandler ∧
      ¬ loop.DestroyedCleanly descriptors := by
  have inv : Inv descriptors loop.registry := by
    apply run.state_invariant (fun loop => Inv descriptors loop.registry)
    · exact construct_inv constructed
    · intro loop use next inv _ stepped
      exact step_inv inv stepped
  let whole : Teardown Other :=
    { registry := loop.registry, queue := loop.timers.loop.queue
      removed := [], closed := [] }
  have wholeInv : Inv descriptors whole.registry := inv
  obtain ⟨rest, destroyed, _, _, watches⟩ := wholeInv.destroy_wakeupFd
  have stops : loop.destroy = .error .removeHandler := by
    have reached : loop.destroy = whole.fdHandler .wakeupFd >>=
        fun teardown => teardown.timerQueue := rfl
    rw [reached, destroyed, ok_bind, watches.deregister_fails]
  refine ⟨stops, ?_⟩
  rintro ⟨teardown, finished, _⟩
  rw [stops] at finished
  cases finished

instance decidableEnabled [DecidableRel mayMove] (loop : LoopMembers Other)
    (use : LoopUse Other) :
    Decidable ((loopMembersMachine mayMove).enabled loop use) :=
  match use with
  | .loop => inferInstanceAs (Decidable (loop.looping = false))
  | .endLoop => inferInstanceAs (Decidable (loop.looping = true ∧
      loop.timers.loop.phase = .idle ∧ loop.timers.functors.batch = []))
  | .setRevents address _ => inferInstanceAs (Decidable (loop.looping = true ∧
      loop.registry.poller.interest (loop.registry.handlers address).fd ≠ none))
  | .timers action => inferInstanceAs (Decidable
      ((timersMachine mayMove).enabled loop.timers action ∧ (_ → _)))
  | .wakeupRead => inferInstanceAs (Decidable (loop.looping = true))
  | .wakeupWrite => isTrue trivial
  | .callOther _ _ => isTrue trivial
  | .destroyOther _ => isTrue trivial

/-- The descriptors of a loop with one other handler. -/
def firstDescriptors : LoopDescriptors Unit where
  timerfd := 4
  eventfd := 5
  other _ := 6
  apart := by decide
  timerfd_own _ := by decide
  eventfd_own _ := by decide

/-- A loop that ran one timer of two while another handler came and went. -/
theorem destroy_asserts_example :
    ∃ (start loop : LoopMembers Unit) (uses : List (LoopUse Unit)),
      (loopMembersMachine (· ≤ ·)).Run start uses loop ∧
      loop.looping = false ∧ loop.timers.loop.queue.timers.size = 1 ∧
      loop.destroy = .error .removeHandler := by
  let uses : List (LoopUse Unit) :=
    [.timers (.newTimer .loopThread 7 20 ⟨false, 0, by decide⟩),
      .timers (.runAdd ⟨7, 1⟩), .timers (.returnId ⟨7, 1⟩),
      .callOther () .enableReading, .callOther () (.updateInPoll .AddEvent),
      .timers (.newTimer .otherThread 8 30 ⟨false, 0, by decide⟩),
      .timers (.queueAdd ⟨8, 2⟩), .wakeupWrite, .loop,
      .timers (.handleRead (.setClock 25)), .setRevents .wakeupFd POLLIN,
      .wakeupRead, .setRevents .timerQueue POLLIN,
      .timers (.handleRead .startCalling), .timers (.handleRead .runCallback),
      .timers (.handleRead .stopCalling), .timers (.handleRead .resetOne),
      .timers (.handleRead .finishReset), .timers .swap, .timers .runFunctor,
      .destroyOther (), .endLoop]
  obtain ⟨start, constructed⟩ :
      ∃ start, construct firstDescriptors 10 = .ok start := ⟨_, rfl⟩
  have found : ((loopMembersMachine (· ≤ ·)).execute start uses).any
      (fun loop => loop.looping = false ∧
        loop.timers.loop.queue.timers.size = 1) = true := by
    have evaluated : (match construct firstDescriptors 10 with
        | .ok start => ((loopMembersMachine (· ≤ ·)).execute start uses).any
            (fun loop => loop.looping = false ∧
              loop.timers.loop.queue.timers.size = 1)
        | .error _ => false) = true := by
      decide +kernel
    rw [constructed] at evaluated
    exact evaluated
  obtain ⟨loop, run, accepted⟩ := Machine.run_of_execute found
  obtain ⟨resting, size⟩ := of_decide_eq_true accepted
  exact ⟨start, loop, uses, run, resting, size,
    (destroy_asserts constructed run).1⟩

/-- A loop without timers that was never used cannot be destroyed cleanly. -/
theorem unused_not_destroyed :
    ∃ start : LoopMembers Unit, construct firstDescriptors 10 = .ok start ∧
      start.looping = false ∧ start.timers.loop.queue.timers.size = 0 ∧
      ¬ start.DestroyedCleanly firstDescriptors := by
  obtain ⟨start, constructed⟩ :
      ∃ start, construct firstDescriptors 10 = .ok start := ⟨_, rfl⟩
  have evaluated : (match construct firstDescriptors 10 with
      | .ok start => !start.looping && start.timers.loop.queue.timers.size == 0 &&
          !start.destroy.isOk
      | .error _ => false) = true := by
    decide +kernel
  rw [constructed] at evaluated
  simp only [Bool.and_eq_true, Bool.not_eq_true', beq_iff_eq] at evaluated
  obtain ⟨⟨resting, size⟩, stops⟩ := evaluated
  refine ⟨start, constructed, resting, size, ?_⟩
  rintro ⟨teardown, finished, _⟩
  rw [finished] at stops
  cases stops

end LoopMembers

end Muduo
