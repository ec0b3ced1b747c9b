import Muduo.Base.Assert

/-!
# Event handlers of one descriptor

The interest mask of a handler and its state in the poller.  `updateInPoll`
covers what the call and the poller do to the handler itself; which descriptors
the poller knows is not part of this state.
-/

namespace Muduo

abbrev EventMask := BitVec 32

def POLLIN : EventMask := 0x0001#32
def POLLPRI : EventMask := 0x0002#32
def POLLOUT : EventMask := 0x0004#32
def POLLERR : EventMask := 0x0008#32
def POLLHUP : EventMask := 0x0010#32
def POLLRDHUP : EventMask := 0x2000#32

def kNoneEvent : EventMask := 0#32
def kReadEvent : EventMask := POLLIN ||| POLLPRI
def kWriteEvent : EventMask := POLLOUT

/-- Whether two masks share a bit, the C test `a & b`. -/
def EventMask.meets (a b : EventMask) : Bool := a &&& b != 0#32

inductive OptFlag where
  | AddEvent
  | ModEvent
  | DelEvent
  deriving DecidableEq, Repr

inductive StateInPoll where
  | New
  | Added
  | Deleted
  deriving DecidableEq, Repr

structure FdHandler where
  fd : Int
  events : EventMask
  revents : EventMask
  stateInPoll : StateInPoll
  deriving DecidableEq, Repr

namespace FdHandler

def new (fd : Int) : FdHandler :=
  { fd, events := kNoneEvent, revents := kNoneEvent, stateInPoll := .New }

def isNoneEvent (handler : FdHandler) : Bool := handler.events == kNoneEvent

def isWriting (handler : FdHandler) : Bool :=
  EventMask.meets handler.events kWriteEvent

def isReading (handler : FdHandler) : Bool :=
  EventMask.meets handler.events kReadEvent

def enableWriting (handler : FdHandler) : FdHandler :=
  { handler with events := handler.events ||| kWriteEvent }

def enableReading (handler : FdHandler) : FdHandler :=
  { handler with events := handler.events ||| kReadEvent }

def disableWriting (handler : FdHandler) : FdHandler :=
  { handler with events := handler.events &&& ~~~kWriteEvent }

def disableReading (handler : FdHandler) : FdHandler :=
  { handler with events := handler.events &&& ~~~kReadEvent }

def disableAll (handler : FdHandler) : FdHandler :=
  { handler with events := kNoneEvent }

/-- The handler's part of `Epoll::updateHandler`. -/
def updateHandler (handler : FdHandler) : FdHandler :=
  match handler.stateInPoll with
  | .New | .Deleted => { handler with stateInPoll := .Added }
  | .Added =>
      if handler.isNoneEvent then { handler with stateInPoll := .Deleted }
      else handler

/-- The handler's part of `Epoll::removeHandler`. -/
def removeHandler (handler : FdHandler) : Checked FdHandler := do
  assertThat (handler.isNoneEvent = true) .removeHandler
  return { handler with stateInPoll := .New }

def updateInPoll (handler : FdHandler) : OptFlag → Checked FdHandler
  | .AddEvent => do
      assertThat (handler.stateInPoll ≠ .Added) .updateInPollAdd
      return handler.updateHandler
  | .ModEvent => do
      assertThat (handler.stateInPoll = .Added) .updateInPollMod
      return handler.updateHandler
  | .DelEvent => handler.removeHandler

@[simp] theorem isWriting_enableWriting (handler : FdHandler) :
    handler.enableWriting.isWriting = true := by
  have absorbed : (handler.events ||| kWriteEvent) &&& kWriteEvent =
      kWriteEvent := by
    ext index
    simp only [BitVec.getElem_and, BitVec.getElem_or]
    cases handler.events[index] <;> simp
  simp only [isWriting, enableWriting, EventMask.meets, absorbed]
  decide

@[simp] theorem isWriting_disableWriting (handler : FdHandler) :
    handler.disableWriting.isWriting = false := by
  have cleared : (handler.events &&& ~~~kWriteEvent) &&& kWriteEvent =
      0#32 := by
    ext index
    simp only [BitVec.getElem_and, BitVec.getElem_not, BitVec.getElem_zero]
    cases kWriteEvent[index] <;> simp
  simp [isWriting, disableWriting, EventMask.meets, cleared]

theorem meets_or {events added mask : EventMask}
    (disjoint : added &&& mask = 0#32) :
    EventMask.meets (events ||| added) mask = EventMask.meets events mask := by
  have apart : (events ||| added) &&& mask = events &&& mask := by
    rw [BitVec.and_comm, BitVec.and_or_distrib_left, BitVec.and_comm,
      BitVec.and_comm mask, disjoint, BitVec.or_zero]
  simp only [EventMask.meets, apart]

@[simp] theorem isReading_enableWriting (handler : FdHandler) :
    handler.enableWriting.isReading = handler.isReading := by
  have disjoint : kWriteEvent &&& kReadEvent = 0#32 := by decide
  exact meets_or disjoint

@[simp] theorem isWriting_enableReading (handler : FdHandler) :
    handler.enableReading.isWriting = handler.isWriting := by
  have disjoint : kReadEvent &&& kWriteEvent = 0#32 := by decide
  exact meets_or disjoint

@[simp] theorem isReading_disableWriting (handler : FdHandler) :
    handler.disableWriting.isReading = handler.isReading := by
  have apart : (handler.events &&& ~~~kWriteEvent) &&& kReadEvent =
      handler.events &&& kReadEvent := by
    have disjoint : ~~~kWriteEvent &&& kReadEvent = kReadEvent := by decide
    rw [BitVec.and_assoc, disjoint]
  simp only [isReading, disableWriting, EventMask.meets, apart]

theorem isNoneEvent_of_isReading {handler : FdHandler}
    (reading : handler.isReading = true) : handler.isNoneEvent = false := by
  by_cases none : handler.events = kNoneEvent
  · simp [isReading, EventMask.meets, none, kNoneEvent] at reading
  · simpa [isNoneEvent] using none

theorem updateInPoll_mod {handler : FdHandler}
    (added : handler.stateInPoll = .Added)
    (reading : handler.isReading = true) :
    handler.updateInPoll .ModEvent = .ok handler := by
  simp [updateInPoll, updateHandler, added, isNoneEvent_of_isReading reading]

end FdHandler

end Muduo
