import Muduo.Library.Handles
import Muduo.Net.Epoll

/-!
# Sockets that connect

`ConnectSocket` with the parts of its loop and of the kernel that it works on:
the poller, the open descriptors with whoever is responsible for them, the
retry timers that are set and the functors that are pending.  What the kernel
answers to an attempt comes with the step that makes it.
-/

namespace Muduo

open Library

/-- Whose handler or descriptor it is. -/
inductive Party where
  | connectSocket
  | link
  | others
  deriving DecidableEq, Repr

inductive ConnectState where
  | Stopped
  | Connecting
  | Connected
  deriving DecidableEq, Repr

/-- The values of `savedErrno` that `connect` tells apart. -/
inductive ConnectErrno where
  | success
  | EINPROGRESS
  | EINTR
  | EISCONN
  | EAGAIN
  | EADDRINUSE
  | EADDRNOTAVAIL
  | ECONNREFUSED
  | ENETUNREACH
  | EACCES
  | EPERM
  | EAFNOSUPPORT
  | EALREADY
  | EBADF
  | EFAULT
  | ENOTSOCK
  | unexpected (code : Nat)
  deriving DecidableEq, Repr

/-- The answers to one attempt: a new descriptor, then the outcome of
connect(2). -/
structure Attempt where
  fd : Int
  errno : ConnectErrno
  deriving DecidableEq, Repr

/-- What `handleWrite` learns of the socket: `getSocketError`, where 0 is no
error, and `isSelfConnect`. -/
structure SocketCheck where
  socketError : Nat
  selfConnect : Bool
  deriving DecidableEq, Repr

inductive ConnectFunctor where
  | startInLoop
  | stopInLoop
  deriving DecidableEq, Repr

/-- Calls of sockets::connect and of the owner's `newConnection`. -/
inductive ConnectEvent where
  | connect (fd : Int)
  | newConnection (fd : Int)
  deriving DecidableEq, Repr

def MaxRetryTimeMs : Nat := 30 * 1000

def InitRetryTimeMs : Nat := 500

structure ConnectSocket where
  handler : FdHandler
  connectState : ConnectState
  retryTimeMs : Nat
  poller : Epoll Party
  descriptors : Handles Int Party
  retryTimers : List Nat
  pendingFunctors : List ConnectFunctor
  trace : List ConnectEvent

namespace ConnectSocket

def new : ConnectSocket :=
  { handler := .new (-1)
    connectState := .Stopped
    retryTimeMs := InitRetryTimeMs
    poller := .new
    descriptors := .empty
    retryTimers := []
    pendingFunctors := []
    trace := [] }

def record (socket : ConnectSocket) (event : ConnectEvent) : ConnectSocket :=
  { socket with trace := socket.trace ++ [event] }

def updateInPoll (socket : ConnectSocket) (flag : OptFlag) :
    Checked ConnectSocket := do
  let (poller, handler) ←
    socket.poller.updateInPoll .connectSocket socket.handler flag
  return { socket with poller, handler }

/-- `sockets::close(fd_)`. -/
def close (socket : ConnectSocket) : ConnectSocket :=
  { socket with
    poller := socket.poller.closed socket.handler.fd
    descriptors :=
      socket.descriptors.release .connectSocket socket.handler.fd }

/-- `fd_ = sockets::createNonBlockSocket(..)`. -/
def createSocket (socket : ConnectSocket) (fd : Int) : ConnectSocket :=
  { socket with
    handler := { socket.handler with fd }
    descriptors := socket.descriptors.acquire .connectSocket fd }

def retry (socket : ConnectSocket) : ConnectSocket :=
  let socket := { socket with connectState := .Stopped }.close
  { socket with
    retryTimers := socket.retryTimers ++ [socket.retryTimeMs]
    retryTimeMs := min (socket.retryTimeMs * 2) MaxRetryTimeMs }

def connect (socket : ConnectSocket) (attempt : Attempt) :
    Checked ConnectSocket :=
  let socket := { socket with connectState := .Connecting }
  let socket := (socket.createSocket attempt.fd).record (.connect attempt.fd)
  match attempt.errno with
  | .success | .EINPROGRESS | .EINTR | .EISCONN =>
      { socket with handler := socket.handler.enableWriting }.updateInPoll
        .AddEvent
  | .EAGAIN | .EADDRINUSE | .EADDRNOTAVAIL | .ECONNREFUSED | .ENETUNREACH =>
      .ok socket.retry
  | .EACCES | .EPERM | .EAFNOSUPPORT | .EALREADY | .EBADF | .EFAULT
  | .ENOTSOCK => .ok socket.close
  | .unexpected _ => .ok socket.close

def startInLoop (socket : ConnectSocket) (attempt : Attempt) :
    Checked ConnectSocket :=
  if socket.connectState = .Stopped then socket.connect attempt
  else .ok socket

/-- The handler leaves the poller, which `stopInLoop` and `handleWrite` begin
with. -/
def deregister (socket : ConnectSocket) : Checked ConnectSocket :=
  { socket with handler := socket.handler.disableAll }.updateInPoll .DelEvent

def stopInLoop (socket : ConnectSocket) : Checked ConnectSocket := do
  if socket.connectState = .Connecting then
    let socket ← { socket with connectState := .Stopped }.deregister
    return socket.close
  else return socket

def restart (socket : ConnectSocket) (attempt : Attempt) :
    Checked ConnectSocket :=
  { socket with retryTimeMs := InitRetryTimeMs }.connect attempt

/-- `handleWrite`, with the descriptor that the owner's `newConnection` is
called with at its end. -/
def handleWrite (socket : ConnectSocket) (check : SocketCheck) :
    Checked (ConnectSocket × Option Int) := do
  if socket.connectState = .Connecting then
    let socket ← socket.deregister
    if check.socketError ≠ 0 then
      return (socket.retry, none)
    else if check.selfConnect then
      return (socket.retry, none)
    else
      let fd := socket.handler.fd
      let socket := { socket with connectState := .Connected }
      return (socket.record (.newConnection fd), some fd)
  else return (socket, none)

/-- `start`, in the loop thread or elsewhere. -/
def start (socket : ConnectSocket) (inLoopThread : Bool)
    (attempt : Attempt) : Checked ConnectSocket :=
  if inLoopThread then socket.startInLoop attempt
  else .ok { socket with
    pendingFunctors := socket.pendingFunctors ++ [.startInLoop] }

def stop (socket : ConnectSocket) : ConnectSocket :=
  { socket with pendingFunctors := socket.pendingFunctors ++ [.stopInLoop] }

/-- A retry timer, whose callback is `start`, falls due in the loop thread. -/
def retryTimer (socket : ConnectSocket) (index : Nat) (attempt : Attempt) :
    Checked ConnectSocket :=
  { socket with retryTimers := socket.retryTimers.eraseIdx index }.start true
    attempt

/-- The loop runs the functor that has waited longest. -/
def runFunctor (socket : ConnectSocket) (attempt : Attempt) :
    Checked ConnectSocket :=
  match socket.pendingFunctors with
  | [] => .ok socket
  | .startInLoop :: pendingFunctors =>
      { socket with pendingFunctors }.startInLoop attempt
  | .stopInLoop :: pendingFunctors => { socket with pendingFunctors }.stopInLoop

end ConnectSocket

end Muduo
