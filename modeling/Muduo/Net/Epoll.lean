import Muduo.Library.Ownership
import Muduo.Net.FdHandler

/-!
# The poller and the kernel's interest list

`fd2handler` is the poller's own map of handlers; `interest` is what the kernel
keeps for the descriptor of the poller.  Handlers are known by their addresses,
so a handler comes with the address that the source has as `this`.
-/

namespace Muduo

open Library

structure EpollEvent (Address : Type) where
  events : EventMask
  ptr : Address
  deriving DecidableEq, Repr

inductive EpollOperation where
  | EPOLL_CTL_ADD
  | EPOLL_CTL_MOD
  | EPOLL_CTL_DEL
  deriving DecidableEq, Repr

structure Epoll (Address : Type) where
  fd2handler : Int → Option Address
  interest : Int → Option (EpollEvent Address)

/-- The operations the kernel takes: one may only add what is absent, and only
change or delete what is present. -/
def EpollOperation.Fits {Address : Type}
    (watched : Option (EpollEvent Address)) : EpollOperation → Prop
  | .EPOLL_CTL_ADD => watched = none
  | .EPOLL_CTL_MOD | .EPOLL_CTL_DEL => watched ≠ none

instance EpollOperation.decidableFits {Address : Type}
    (watched : Option (EpollEvent Address)) (operation : EpollOperation) :
    Decidable (operation.Fits watched) :=
  match operation, watched with
  | .EPOLL_CTL_ADD, none => isTrue rfl
  | .EPOLL_CTL_ADD, some _ => isFalse (by simp [EpollOperation.Fits])
  | .EPOLL_CTL_MOD, none => isFalse (by simp [EpollOperation.Fits])
  | .EPOLL_CTL_MOD, some _ => isTrue (by simp [EpollOperation.Fits])
  | .EPOLL_CTL_DEL, none => isFalse (by simp [EpollOperation.Fits])
  | .EPOLL_CTL_DEL, some _ => isTrue (by simp [EpollOperation.Fits])

/-- What an operation leaves in the interest list. -/
def EpollOperation.result {Address : Type} (event : EpollEvent Address) :
    EpollOperation → Option (EpollEvent Address)
  | .EPOLL_CTL_ADD | .EPOLL_CTL_MOD => some event
  | .EPOLL_CTL_DEL => none

namespace Epoll

variable {Address : Type}

def new : Epoll Address :=
  { fd2handler := fun _ => none, interest := fun _ => none }

def hasHandler (poller : Epoll Address) (handler : FdHandler) : Bool :=
  (poller.fd2handler handler.fd).isSome

/-- `update`, with the failure of `epoll_ctl` that it does not survive. -/
def update (poller : Epoll Address) (operation : EpollOperation)
    (this : Address) (handler : FdHandler) : Checked (Epoll Address) :=
  let event := { events := handler.events, ptr := this }
  if operation.Fits (poller.interest handler.fd) then
    .ok { poller with
      interest := write poller.interest handler.fd (operation.result event) }
  else .error .epollCtl

/-- The kernel forgets a descriptor that is closed, the poller does not. -/
def closed (poller : Epoll Address) (fd : Int) : Epoll Address :=
  { poller with interest := write poller.interest fd none }

variable [DecidableEq Address]

def removeHandler (poller : Epoll Address) (this : Address)
    (handler : FdHandler) : Checked (Epoll Address × FdHandler) := do
  assertThat (poller.fd2handler handler.fd ≠ none) .removeHandlerFind
  assertThat (poller.fd2handler handler.fd = some this) .removeHandlerSame
  assertThat (handler.isNoneEvent = true) .removeHandler
  let poller := { poller with
    fd2handler := write poller.fd2handler handler.fd none }
  let poller ← if handler.stateInPoll = .Added then
      poller.update .EPOLL_CTL_DEL this handler
    else .ok poller
  return (poller, { handler with stateInPoll := .New })

/-- The first half of `updateHandler`: a handler the kernel does not watch. -/
def addHandler (poller : Epoll Address) (this : Address)
    (handler : FdHandler) : Checked (Epoll Address × FdHandler) := do
  let poller ← if handler.stateInPoll = .New then do
      assertThat (poller.fd2handler handler.fd = none) .updateHandlerNew
      pure { poller with
        fd2handler := write poller.fd2handler handler.fd (some this) }
    else .ok poller
  let handler := { handler with stateInPoll := .Added }
  let poller ← poller.update .EPOLL_CTL_ADD this handler
  return (poller, handler)

/-- The second half of `updateHandler`: a handler in state `Added`. -/
def modifyHandler (poller : Epoll Address) (this : Address)
    (handler : FdHandler) : Checked (Epoll Address × FdHandler) := do
  assertThat (poller.fd2handler handler.fd ≠ none) .updateHandlerFind
  assertThat (poller.fd2handler handler.fd = some this) .updateHandlerSame
  if handler.isNoneEvent then
    let poller ← poller.update .EPOLL_CTL_DEL this handler
    return (poller, { handler with stateInPoll := .Deleted })
  else
    let poller ← poller.update .EPOLL_CTL_MOD this handler
    return (poller, handler)

def updateHandler (poller : Epoll Address) (this : Address)
    (handler : FdHandler) : Checked (Epoll Address × FdHandler) :=
  match handler.stateInPoll with
  | .New | .Deleted => poller.addHandler this handler
  | .Added => poller.modifyHandler this handler

/-- `FdHandler::updateInPoll`, with the poller of the handler's loop. -/
def updateInPoll (poller : Epoll Address) (this : Address)
    (handler : FdHandler) :
    OptFlag → Checked (Epoll Address × FdHandler)
  | .AddEvent => do
      assertThat (handler.stateInPoll ≠ .Added) .updateInPollAdd
      poller.updateHandler this handler
  | .ModEvent => do
      assertThat (handler.stateInPoll = .Added) .updateInPollMod
      poller.updateHandler this handler
  | .DelEvent => poller.removeHandler this handler

end Epoll

end Muduo
