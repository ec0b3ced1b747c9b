import Mathlib.Logic.Function.Basic
import Muduo.Library.Machine
import Muduo.Net.Epoll

/-!
# The poller mirrors the kernel

Three places record what is watched: the state of the handler, the map of the
poller and the interest list of the kernel.  `Mirrors` says that they agree for
one handler.  Each operation of the poller keeps this agreement and touches
nothing under other descriptors, so it holds for all handlers of a registry.
-/

namespace Muduo

open Library

variable {Address : Type}

/-- The entry of a handler in the map, by its state in the poller. -/
def StateInPoll.entry (this : Address) : StateInPoll → Option Address
  | .New => none
  | .Added | .Deleted => some this

/-- The entry of a handler in the interest list, by its state in the poller. -/
def StateInPoll.event (event : EpollEvent Address) :
    StateInPoll → Option (EpollEvent Address)
  | .Added => some event
  | .New | .Deleted => none

/-- What the poller and the kernel have under the descriptor of the handler at
`this` fits its state; `last` is its interest when it was last updated. -/
structure Mirrors (poller : Epoll Address) (this : Address)
    (handler : FdHandler) (last : EventMask) : Prop where
  known : poller.fd2handler handler.fd = handler.stateInPoll.entry this
  watched : poller.interest handler.fd =
    handler.stateInPoll.event { events := last, ptr := this }

/-- The poller and the kernel with one handler as it is now. -/
def Epoll.record (poller : Epoll Address) (this : Address)
    (handler : FdHandler) : Epoll Address where
  fd2handler := write poller.fd2handler handler.fd
    (handler.stateInPoll.entry this)
  interest := write poller.interest handler.fd
    (handler.stateInPoll.event { events := handler.events, ptr := this })

namespace FdHandler

theorem updateHandler_kept (handler : FdHandler) :
    handler.updateHandler.fd = handler.fd ∧
      handler.updateHandler.events = handler.events := by
  unfold updateHandler
  split
  · exact ⟨rfl, rfl⟩
  · exact ⟨rfl, rfl⟩
  · split
    · exact ⟨rfl, rfl⟩
    · exact ⟨rfl, rfl⟩

theorem updateInPoll_kept {handler after : FdHandler} {flag : OptFlag}
    (updated : handler.updateInPoll flag = .ok after) :
    after.fd = handler.fd ∧ after.events = handler.events := by
  cases flag with
  | AddEvent =>
      obtain ⟨_, _, result⟩ := bind_eq_ok updated
      cases result
      exact handler.updateHandler_kept
  | ModEvent =>
      obtain ⟨_, _, result⟩ := bind_eq_ok updated
      cases result
      exact handler.updateHandler_kept
  | DelEvent =>
      obtain ⟨_, _, result⟩ := bind_eq_ok updated
      cases result
      exact ⟨rfl, rfl⟩

theorem updateInPoll_ctl (handler : FdHandler) (flag : OptFlag) :
    handler.updateInPoll flag ≠ .error .epollCtl := by
  cases flag with
  | AddEvent =>
      by_cases unwatched : handler.stateInPoll ≠ .Added
      · simp [updateInPoll, unwatched, pure, Except.pure]
      · simp [updateInPoll, unwatched]
  | ModEvent =>
      by_cases added : handler.stateInPoll = .Added
      · simp [updateInPoll, added, pure, Except.pure]
      · simp [updateInPoll, added]
  | DelEvent =>
      by_cases silent : handler.isNoneEvent = true
      · simp [updateInPoll, removeHandler, silent, pure, Except.pure]
      · simp [updateInPoll, removeHandler, silent]

end FdHandler

variable {poller : Epoll Address} {this : Address} {handler : FdHandler}
variable {last : EventMask}

theorem Epoll.record_mirrors :
    Mirrors (poller.record this handler) this handler handler.events where
  known := write_same
  watched := write_same

/-- A handler that is not in the map under its descriptor cannot be removed. -/
theorem Epoll.removeHandler_unknown [DecidableEq Address]
    (other : poller.fd2handler handler.fd ≠ some this) :
    poller.removeHandler this handler = .error .removeHandlerFind ∨
      poller.removeHandler this handler = .error .removeHandlerSame := by
  by_cases absent : poller.fd2handler handler.fd = none
  · exact .inl (by simp [Epoll.removeHandler, absent])
  · exact .inr (by simp [Epoll.removeHandler, absent, other])

namespace Mirrors

theorem record_other (mirrors : Mirrors poller this handler last)
    {that : Address} {other : FdHandler} (apart : handler.fd ≠ other.fd) :
    Mirrors (poller.record that other) this handler last where
  known := (write_other apart).trans mirrors.known
  watched := (write_other apart).trans mirrors.watched

theorem interested (mirrors : Mirrors poller this handler last)
    {other : FdHandler} (fd : other.fd = handler.fd)
    (stateInPoll : other.stateInPoll = handler.stateInPoll) :
    Mirrors poller this other last where
  known := by rw [fd, stateInPoll, mirrors.known]
  watched := by rw [fd, stateInPoll, mirrors.watched]

theorem addHandler_eq (mirrors : Mirrors poller this handler last)
    (unwatched : handler.stateInPoll ≠ .Added) :
    poller.addHandler this handler =
      .ok (poller.record this { handler with stateInPoll := .Added },
        { handler with stateInPoll := .Added }) := by
  have watched := mirrors.watched
  have known := mirrors.known
  cases state : handler.stateInPoll with
  | New =>
      simp only [state, StateInPoll.event, StateInPoll.entry] at watched known
      simp [Epoll.addHandler, Epoll.update, Epoll.record, EpollOperation.Fits,
        EpollOperation.result, StateInPoll.entry, StateInPoll.event, state,
        watched, known, pure, Except.pure]
  | Added => exact absurd state unwatched
  | Deleted =>
      simp only [state, StateInPoll.event, StateInPoll.entry] at watched known
      simp [Epoll.addHandler, Epoll.update, Epoll.record, EpollOperation.Fits,
        EpollOperation.result, StateInPoll.entry, StateInPoll.event, state,
        watched, write_eq_self known, pure, Except.pure]

variable [DecidableEq Address]

theorem removeHandler_new (mirrors : Mirrors poller this handler last)
    (new : handler.stateInPoll = .New) :
    poller.removeHandler this handler = .error .removeHandlerFind := by
  have absent : poller.fd2handler handler.fd = none := by
    rw [mirrors.known, new]
    rfl
  simp [Epoll.removeHandler, absent]

theorem removeHandler_eq (mirrors : Mirrors poller this handler last)
    (old : handler.stateInPoll ≠ .New) :
    poller.removeHandler this handler =
      handler.removeHandler.map fun after =>
        (poller.record this after, after) := by
  have present : poller.fd2handler handler.fd = some this := by
    rw [mirrors.known]
    cases state : handler.stateInPoll with
    | New => exact absurd state old
    | Added => rfl
    | Deleted => rfl
  by_cases silent : handler.isNoneEvent = true
  · by_cases added : handler.stateInPoll = .Added
    · have watched : poller.interest handler.fd ≠ none := by
        rw [mirrors.watched, added]
        exact Option.some_ne_none _
      simp [Epoll.removeHandler, FdHandler.removeHandler, Epoll.update,
        Epoll.record, EpollOperation.Fits, EpollOperation.result,
        StateInPoll.entry, StateInPoll.event, present, silent, added, watched,
        pure, Except.pure, Except.map]
    · have unwatched : poller.interest handler.fd = none := by
        rw [mirrors.watched]
        cases state : handler.stateInPoll with
        | New => rfl
        | Added => exact absurd state added
        | Deleted => rfl
      simp [Epoll.removeHandler, FdHandler.removeHandler, Epoll.record,
        StateInPoll.entry, StateInPoll.event, present, silent, added,
        write_eq_self unwatched, pure, Except.pure, Except.map]
  · simp [Epoll.removeHandler, FdHandler.removeHandler, present, silent,
      Except.map]

theorem modifyHandler_eq (mirrors : Mirrors poller this handler last)
    (added : handler.stateInPoll = .Added) :
    poller.modifyHandler this handler =
      .ok (poller.record this handler.updateHandler,
        handler.updateHandler) := by
  have watched := mirrors.watched
  have known := mirrors.known
  simp only [added, StateInPoll.event, StateInPoll.entry] at watched known
  have present : poller.interest handler.fd ≠ none := by
    rw [watched]
    exact Option.some_ne_none _
  by_cases silent : handler.isNoneEvent = true
  · simp [Epoll.modifyHandler, Epoll.update, Epoll.record,
      FdHandler.updateHandler, EpollOperation.Fits, EpollOperation.result,
      StateInPoll.entry, StateInPoll.event, added, silent, present, known,
      write_eq_self known, pure, Except.pure]
  · simp [Epoll.modifyHandler, Epoll.update, Epoll.record,
      FdHandler.updateHandler, EpollOperation.Fits, EpollOperation.result,
      StateInPoll.entry, StateInPoll.event, added, silent, present, known,
      write_eq_self known, pure, Except.pure]

theorem updateHandler_eq (mirrors : Mirrors poller this handler last) :
    poller.updateHandler this handler =
      .ok (poller.record this handler.updateHandler,
        handler.updateHandler) := by
  cases state : handler.stateInPoll with
  | New =>
      have unwatched : handler.stateInPoll ≠ .Added := by simp [state]
      simpa [Epoll.updateHandler, FdHandler.updateHandler, state] using
        mirrors.addHandler_eq unwatched
  | Added =>
      simpa [Epoll.updateHandler, state] using mirrors.modifyHandler_eq state
  | Deleted =>
      have unwatched : handler.stateInPoll ≠ .Added := by simp [state]
      simpa [Epoll.updateHandler, FdHandler.updateHandler, state] using
        mirrors.addHandler_eq unwatched

/-- A known handler is updated just as it is without the poller, and the poller
and the kernel record the outcome. -/
theorem updateInPoll_eq (mirrors : Mirrors poller this handler last)
    {flag : OptFlag}
    (old : flag = .DelEvent → handler.stateInPoll ≠ .New) :
    poller.updateInPoll this handler flag =
      (handler.updateInPoll flag).map fun after =>
        (poller.record this after, after) := by
  cases flag with
  | AddEvent =>
      by_cases unwatched : handler.stateInPoll ≠ .Added
      · simp [Epoll.updateInPoll, FdHandler.updateInPoll, unwatched,
          mirrors.updateHandler_eq, pure, Except.pure, Except.map]
      · simp [Epoll.updateInPoll, FdHandler.updateInPoll, unwatched,
          Except.map]
  | ModEvent =>
      by_cases added : handler.stateInPoll = .Added
      · simp [Epoll.updateInPoll, FdHandler.updateInPoll, added,
          mirrors.updateHandler_eq, pure, Except.pure, Except.map]
      · simp [Epoll.updateInPoll, FdHandler.updateInPoll, added, Except.map]
  | DelEvent => exact mirrors.removeHandler_eq (old rfl)

/-- The kernel refuses nothing that is asked for a handler. -/
theorem updateInPoll_ctl (mirrors : Mirrors poller this handler last)
    (flag : OptFlag) :
    poller.updateInPoll this handler flag ≠ .error .epollCtl := by
  by_cases old : flag = .DelEvent → handler.stateInPoll ≠ .New
  · rw [mirrors.updateInPoll_eq old]
    intro failed
    exact handler.updateInPoll_ctl flag (eq_error_of_map failed)
  · obtain ⟨deletes, new⟩ := Classical.not_imp.mp old
    rw [deletes]
    intro failed
    have refused := mirrors.removeHandler_new (not_not.mp new)
    cases refused.symm.trans failed

theorem of_updateInPoll (mirrors : Mirrors poller this handler last)
    {flag : OptFlag} {next : Epoll Address} {after : FdHandler}
    (updated : poller.updateInPoll this handler flag = .ok (next, after)) :
    next = poller.record this after ∧ after.fd = handler.fd ∧
      after.events = handler.events := by
  have old : flag = .DelEvent → handler.stateInPoll ≠ .New := by
    rintro rfl new
    have refused := mirrors.removeHandler_new new
    cases refused.symm.trans updated
  rw [mirrors.updateInPoll_eq old] at updated
  obtain ⟨other, changed, same⟩ := exists_of_map_eq_ok updated
  obtain ⟨rfl, rfl⟩ := Prod.mk.inj same
  obtain ⟨fd, events⟩ := FdHandler.updateInPoll_kept changed
  exact ⟨rfl, fd, events⟩

end Mirrors

/-- The calls on a handler that change its interest or update the poller. -/
inductive HandlerCall where
  | enableReading
  | enableWriting
  | disableReading
  | disableWriting
  | disableAll
  | updateInPoll (flag : OptFlag)
  deriving DecidableEq, Repr

/-- Handlers at their addresses with the poller of their loop.  `lastEvents` is
the interest that each had at its last `updateInPoll`. -/
structure Registry (Address : Type) where
  poller : Epoll Address
  handlers : Address → FdHandler
  lastEvents : Address → EventMask

namespace Registry

def new (fds : Address → Int) : Registry Address where
  poller := .new
  handlers address := .new (fds address)
  lastEvents _ := kNoneEvent

variable [DecidableEq Address]

/-- Another interest of a handler, which the poller does not hear of. -/
def setHandler (registry : Registry Address) (address : Address)
    (handler : FdHandler) : Registry Address :=
  { registry with
    handlers := Function.update registry.handlers address handler }

def updateInPoll (registry : Registry Address) (address : Address)
    (flag : OptFlag) : Checked (Registry Address) := do
  let handler := registry.handlers address
  let (poller, after) ← registry.poller.updateInPoll address handler flag
  return { poller
           handlers := Function.update registry.handlers address after
           lastEvents := Function.update registry.lastEvents address
             handler.events }

def call (registry : Registry Address) (address : Address) :
    HandlerCall → Checked (Registry Address)
  | .enableReading => .ok <|
      registry.setHandler address (registry.handlers address).enableReading
  | .enableWriting => .ok <|
      registry.setHandler address (registry.handlers address).enableWriting
  | .disableReading => .ok <|
      registry.setHandler address (registry.handlers address).disableReading
  | .disableWriting => .ok <|
      registry.setHandler address (registry.handlers address).disableWriting
  | .disableAll => .ok <|
      registry.setHandler address (registry.handlers address).disableAll
  | .updateInPoll flag => registry.updateInPoll address flag

/-- Any handler may be called at any time; the asserts decide whether the call
ends. -/
def machine : Machine (Registry Address) (Address × HandlerCall) Fault where
  enabled _ _ := True
  step registry action := registry.call action.1 action.2

instance decidableEnabled (registry : Registry Address)
    (action : Address × HandlerCall) :
    Decidable (machine.enabled registry action) := isTrue trivial

/-- The agreement for all handlers, each with a descriptor of its own. -/
structure Mirrored (fds : Address → Int) (registry : Registry Address) :
    Prop where
  fd : ∀ address, (registry.handlers address).fd = fds address
  mirrors : ∀ address, Mirrors registry.poller address
    (registry.handlers address) (registry.lastEvents address)

namespace Mirrored

variable {fds : Address → Int} {registry next : Registry Address}

omit [DecidableEq Address] in
theorem new : Mirrored fds (.new fds) where
  fd _ := rfl
  mirrors _ := ⟨rfl, rfl⟩

theorem setHandler (mirrored : Mirrored fds registry) {address : Address}
    {handler : FdHandler} (fd : handler.fd = (registry.handlers address).fd)
    (stateInPoll : handler.stateInPoll =
      (registry.handlers address).stateInPoll) :
    Mirrored fds (registry.setHandler address handler) where
  fd other := by
    by_cases same : other = address
    · subst same
      simp [Registry.setHandler, fd, mirrored.fd]
    · simp [Registry.setHandler, same, mirrored.fd]
  mirrors other := by
    by_cases same : other = address
    · subst same
      simpa [Registry.setHandler] using
        (mirrored.mirrors other).interested fd stateInPoll
    · simpa [Registry.setHandler, same] using mirrored.mirrors other

theorem updateInPoll (distinct : Function.Injective fds)
    (mirrored : Mirrored fds registry) {address : Address} {flag : OptFlag}
    (updated : registry.updateInPoll address flag = .ok next) :
    Mirrored fds next := by
  obtain ⟨⟨poller, after⟩, changed, result⟩ := bind_eq_ok updated
  cases result
  obtain ⟨rfl, fd, events⟩ :=
    (mirrored.mirrors address).of_updateInPoll changed
  constructor
  · intro other
    by_cases same : other = address
    · subst same
      simp [fd, mirrored.fd]
    · simp [same, mirrored.fd]
  · intro other
    by_cases same : other = address
    · subst same
      have recorded : Mirrors (registry.poller.record other after) other
          after after.events := Epoll.record_mirrors
      simpa [events] using recorded
    · have apart : (registry.handlers other).fd ≠ after.fd := by
        rw [fd, mirrored.fd, mirrored.fd]
        exact distinct.ne same
      simpa [same] using (mirrored.mirrors other).record_other apart

/-- Each call keeps the agreement. -/
theorem call (distinct : Function.Injective fds)
    (mirrored : Mirrored fds registry) {address : Address}
    {call : HandlerCall} (called : registry.call address call = .ok next) :
    Mirrored fds next := by
  cases call with
  | enableReading =>
      cases called
      exact mirrored.setHandler rfl rfl
  | enableWriting =>
      cases called
      exact mirrored.setHandler rfl rfl
  | disableReading =>
      cases called
      exact mirrored.setHandler rfl rfl
  | disableWriting =>
      cases called
      exact mirrored.setHandler rfl rfl
  | disableAll =>
      cases called
      exact mirrored.setHandler rfl rfl
  | updateInPoll flag => exact mirrored.updateInPoll distinct called

theorem call_ctl (mirrored : Mirrored fds registry) (address : Address)
    (call : HandlerCall) : registry.call address call ≠ .error .epollCtl := by
  cases call with
  | updateInPoll flag =>
      intro failed
      have refused := (mirrored.mirrors address).updateInPoll_ctl flag
      cases outcome : registry.poller.updateInPoll address
          (registry.handlers address) flag with
      | error fault =>
          simp only [Registry.call, Registry.updateInPoll, outcome] at failed
          cases failed
          exact refused outcome
      | ok result =>
          simp only [Registry.call, Registry.updateInPoll, outcome] at failed
          cases failed
  | enableReading => simp [Registry.call]
  | enableWriting => simp [Registry.call]
  | disableReading => simp [Registry.call]
  | disableWriting => simp [Registry.call]
  | disableAll => simp [Registry.call]

end Mirrored

theorem run_mirrored {fds : Address → Int}
    (distinct : Function.Injective fds) {calls : List (Address × HandlerCall)}
    {registry : Registry Address}
    (run : machine.Run (.new fds) calls registry) : Mirrored fds registry := by
  apply Machine.Run.state_invariant (Mirrored fds) .new ?_ run
  intro state action next mirrored _ called
  exact mirrored.call distinct called

/-- After every run of calls that the asserts let through, a handler is in the
map exactly in the states `Added` and `Deleted`, and the kernel watches its
descriptor exactly in state `Added`, for this handler and with the interest of
its last update.  Whatever is called next, no `epoll_ctl` fails. -/
theorem registry_mirrors_kernel {fds : Address → Int}
    (distinct : Function.Injective fds) {calls : List (Address × HandlerCall)}
    {registry : Registry Address}
    (run : machine.Run (.new fds) calls registry) :
    (∀ address, (registry.handlers address).fd = fds address ∧
      (registry.poller.fd2handler (fds address) = some address ↔
        (registry.handlers address).stateInPoll = .Added ∨
          (registry.handlers address).stateInPoll = .Deleted) ∧
      (registry.poller.interest (fds address) ≠ none ↔
        (registry.handlers address).stateInPoll = .Added) ∧
      ∀ event, registry.poller.interest (fds address) = some event →
        event = { events := registry.lastEvents address, ptr := address }) ∧
      ∀ address call, registry.call address call ≠ .error .epollCtl := by
  have mirrored := run_mirrored distinct run
  refine ⟨?_, mirrored.call_ctl⟩
  intro address
  have known := (mirrored.mirrors address).known
  have watched := (mirrored.mirrors address).watched
  rw [mirrored.fd] at known watched
  refine ⟨mirrored.fd address, ?_⟩
  rw [known, watched]
  cases (registry.handlers address).stateInPoll with
  | New => simp [StateInPoll.entry, StateInPoll.event]
  | Added => simp [StateInPoll.entry, StateInPoll.event]
  | Deleted => simp [StateInPoll.entry, StateInPoll.event]

/-- Two handlers; one is deleted for want of interest and added again, the other
one is removed for good. -/
theorem registry_mirrors_kernel_two :
    ∃ (calls : List (Bool × HandlerCall)) (registry : Registry Bool),
      machine.Run (.new (fun address => if address then 7 else 8)) calls
        registry ∧
      (registry.handlers true).stateInPoll = .Added ∧
      registry.poller.fd2handler 7 = some true ∧
      registry.poller.interest 8 = none ∧
      ∀ address call, registry.call address call ≠ .error .epollCtl := by
  have found : (machine.execute
      (.new (fun address : Bool => if address then 7 else 8))
      [(true, .enableReading), (true, .updateInPoll .AddEvent),
        (false, .enableWriting), (false, .updateInPoll .AddEvent),
        (true, .disableAll), (true, .updateInPoll .ModEvent),
        (false, .disableWriting), (false, .updateInPoll .DelEvent),
        (true, .enableReading), (true, .updateInPoll .AddEvent)]).any
      (fun registry => (registry.handlers true).stateInPoll = .Added ∧
        registry.poller.interest 8 = none) = true := by
    decide +kernel
  obtain ⟨registry, run, reached⟩ := Machine.run_of_execute found
  obtain ⟨added, unwatched⟩ := of_decide_eq_true reached
  have distinct : Function.Injective
      (fun address : Bool => if address then (7 : Int) else 8) := by
    intro first second
    cases first <;> cases second <;> simp
  obtain ⟨agreement, accepted⟩ := registry_mirrors_kernel distinct run
  obtain ⟨_, known, _⟩ := agreement true
  exact ⟨_, registry, run, added, known.mpr (.inl added), unwatched, accepted⟩

end Registry

end Muduo
