import Mathlib.Algebra.GroupWithZero.Nat
import Muduo.Library.Machine
import Muduo.Net.LinkedSocket

/-!
# A link in its loop

One link of a `TcpServer` with the loop thread that handles it and the other
threads that hold its `shared_ptr`.  The functions of the link are cut where they
call the owner and where a copy of the pointer goes out of scope, so that
callbacks and other threads can act in between; what is left of the functions is
a stack of frames.
-/

namespace Muduo

open Library

/-- What a function of the loop thread has still to do.  `scopeEnd` only destroys
a local copy of the pointer; `callback` is a function of the user, called with a
copy that is destroyed when it returns. -/
inductive Frame where
  | prepare
  | eventError
  | eventHangup
  | eventInput
  | eventOutput
  | handleRead
  | handleWrite
  | handleWriteEnd
  | handleClose
  | delConnection
  | scopeEnd
  | callback
  | sendInLoop (message : List Byte)
  | sendRest (length : Nat) (sending : Sending)
  | queueOutput (remaining : List Byte)
  | shutdownInLoop
  | forceCloseInLoop

namespace Frame

/-- The frame reads or writes a member of the link. -/
def usesLink : Frame → Bool
  | scopeEnd | callback => false
  | _ => true

/-- Copies of the pointer that live in the frame; `delConnection` runs with the
local copy of `handleClose`. -/
def copies : Frame → Nat
  | delConnection | scopeEnd | callback => 1
  | _ => 0

def isCallback : Frame → Bool
  | callback => true
  | _ => false

end Frame

/-- The functors that are queued for a link. -/
inductive LinkFunctor where
  | prepare
  | sendInLoop (message : List Byte)
  | shutdownInLoop
  | forceCloseInLoop
  deriving DecidableEq, Repr

namespace LinkFunctor

def frame : LinkFunctor → Frame
  | prepare => .prepare
  | sendInLoop message => .sendInLoop message
  | shutdownInLoop => .shutdownInLoop
  | forceCloseInLoop => .forceCloseInLoop

/-- `prepare` and `forceCloseInLoop` are bound to the `shared_ptr`, the others
to the plain pointer. -/
def copies : LinkFunctor → Nat
  | prepare | forceCloseInLoop => 1
  | sendInLoop _ | shutdownInLoop => 0

end LinkFunctor

/-- `active` is a link that the poller reported and whose events are not yet
handled.  `functors` are the functors of `doPendingFunctors`, if it runs: those
that ran and those still to run; all are destroyed when it returns. -/
structure LinkLoop where
  link : LinkedSocket Unit
  reads : List (Except Errno (List Byte))
  inMap : Bool
  users : Nat
  stack : List Frame
  active : Bool
  pendingFunctors : List LinkFunctor
  functors : Option (List LinkFunctor × List LinkFunctor)

namespace LinkLoop

/-- The functors that exist. -/
def bound (loop : LinkLoop) : List LinkFunctor :=
  match loop.functors with
  | some (ran, remaining) => loop.pendingFunctors ++ (ran ++ remaining)
  | none => loop.pendingFunctors

/-- The reference count of the `shared_ptr`: the copy in `name2connection`, those
of users, those bound into functors and those on the stack of the loop. -/
def refCount (loop : LinkLoop) : Nat :=
  loop.inMap.toNat + loop.users + (loop.bound.map LinkFunctor.copies).sum +
    (loop.stack.map Frame.copies).sum

def call (loop : LinkLoop) (frames : List Frame) : LinkLoop :=
  { loop with stack := frames ++ loop.stack }

def callIf (loop : LinkLoop) (condition : Bool) (frame : Frame) : LinkLoop :=
  if condition then loop.call [frame] else loop

def queueInLoop (loop : LinkLoop) (functor : LinkFunctor) : LinkLoop :=
  { loop with pendingFunctors := loop.pendingFunctors ++ [functor] }

def setLink (loop : LinkLoop) (link : LinkedSocket Unit) : LinkLoop :=
  { loop with link }

/-- `TcpServer::newConnection` from where the map has the link, for a loop that
is its own or that of another thread; its local copy lasts until it returns, as
does that of the functor that it runs at once. -/
def newConnection (link : LinkedSocket Unit)
    (reads : List (Except Errno (List Byte))) (inLoop : Bool) : LinkLoop :=
  { link, reads, inMap := true
    users := if inLoop then 0 else 1
    stack := if inLoop then [.prepare, .scopeEnd, .scopeEnd] else []
    active := false
    pendingFunctors := if inLoop then [] else [.prepare]
    functors := none }

/-- The answer to the next read; the list covers every pattern of answers. -/
def nextRead : List (Except Errno (List Byte)) →
    Except Errno (List Byte) × List (Except Errno (List Byte))
  | [] => (.error .ewouldblock, [])
  | outcome :: reads => (outcome, reads)

/-- `handleRead` up to the call of the owner or of `handleClose`. -/
def handleRead (loop : LinkLoop) : Checked LinkLoop := do
  let (outcome, reads) := nextRead loop.reads
  let inputBuffer ← loop.link.inputBuffer.readFd outcome
  let loop := { loop with link := { loop.link with inputBuffer }, reads }
  match outcome with
  | .error _ => return loop
  | .ok data =>
      if data = [] then return loop.call [.handleClose]
      else return loop.call [.callback]

/-- `handleWrite` up to the call of the owner. -/
def handleWrite (loop : LinkLoop) : Checked LinkLoop := do
  if loop.link.isWriting then
    let (link, emptied) ← loop.link.writeQueued
    if emptied then
      let link ← link.disableWriting.updateInPoll .ModEvent
      return (loop.setLink (link.record .writeComplete)).call
        [.callback, .handleWriteEnd]
    else return loop.setLink link
  else return loop

/-- `sendInLoop` up to the direct write. -/
def sendInLoop (loop : LinkLoop) (message : List Byte) : LinkLoop :=
  if loop.link.state = .kDisconnected then loop
  else
    let (link, sending) := loop.link.writeDirectly message
    if sending.completed then
      (loop.setLink (link.record .writeComplete)).call
        [.callback, .sendRest message.length sending]
    else (loop.setLink link).call [.sendRest message.length sending]

/-- `sendInLoop` from the direct write on, up to the high-water mark. -/
def sendRest (loop : LinkLoop) (length : Nat) (sending : Sending) :
    Checked LinkLoop := do
  assertThat (sending.remaining.length ≤ length) .sendInLoop
  if !sending.faultError ∧ 0 < sending.remaining.length then
    if loop.link.reachesHighWater sending.remaining.length then
      let size := loop.link.outputBuffer.readableBytes +
        sending.remaining.length
      return (loop.setLink (loop.link.record (.highWaterMark size))).call
        [.callback, .queueOutput sending.remaining]
    else return loop.call [.queueOutput sending.remaining]
  else return loop

/-- One turn of the frame at the top, which is off the stack already. -/
def run (loop : LinkLoop) : Frame → Checked LinkLoop
  | .prepare => do
      let link ← loop.link.prepare
      return loop.setLink link
  -- `handleError` only writes to the log.
  | .eventError => .ok loop
  | .eventHangup =>
      let revents := loop.link.handler.revents
      .ok (loop.callIf (revents.meets POLLHUP && !revents.meets POLLIN)
        .handleClose)
  | .eventInput =>
      let revents := loop.link.handler.revents
      .ok (loop.callIf (revents.meets (POLLIN ||| POLLPRI ||| POLLRDHUP))
        .handleRead)
  | .eventOutput =>
      let revents := loop.link.handler.revents
      .ok (loop.callIf (revents.meets POLLOUT) .handleWrite)
  | .handleRead => loop.handleRead
  | .handleWrite => loop.handleWrite
  | .handleWriteEnd =>
      .ok (loop.callIf (loop.link.state = .kDisconnecting) .shutdownInLoop)
  | .handleClose => do
      let link ← loop.link.startClose
      return (loop.setLink link).call [.delConnection]
  | .delConnection => .ok ({ loop with inMap := false }.call [.scopeEnd])
  | .sendInLoop message => .ok (loop.sendInLoop message)
  | .sendRest length sending => loop.sendRest length sending
  | .queueOutput remaining => do
      let link ← loop.link.queueOutput remaining
      return loop.setLink link
  | .shutdownInLoop => .ok (loop.setLink loop.link.shutdownInLoop)
  | .forceCloseInLoop =>
      .ok (loop.callIf (loop.link.state = .kConnected) .handleClose)
  | .scopeEnd | .callback => .ok loop

/-- The frame at the top goes on; a link without a copy is destroyed. -/
def exec (loop : LinkLoop) : Checked LinkLoop :=
  match loop.stack with
  | [] => .ok loop
  | frame :: stack =>
      if frame.usesLink = true ∧ loop.refCount = 0 then .error .linkUse
      else { loop with stack }.run frame

/-- `send`, in the loop thread or in another one. -/
def send (loop : LinkLoop) (inLoop : Bool) (message : List Byte) : LinkLoop :=
  if loop.link.state = .kConnected then
    if inLoop then loop.call [.sendInLoop message]
    else loop.queueInLoop (.sendInLoop message)
  else loop

def shutdown (loop : LinkLoop) (inLoop : Bool) : LinkLoop :=
  if loop.link.state = .kConnected then
    let loop := loop.setLink (loop.link.setState .kDisconnecting)
    if inLoop then loop.call [.shutdownInLoop]
    else loop.queueInLoop .shutdownInLoop
  else loop

def forceClose (loop : LinkLoop) : LinkLoop :=
  if loop.link.state = .kConnected then
    (loop.setLink (loop.link.setState .kDisconnecting)).queueInLoop
      .forceCloseInLoop
  else loop

/-- The poller reports events of the link. -/
def poll (loop : LinkLoop) (revents : EventMask) : LinkLoop :=
  { loop with
    link := { loop.link with handler := { loop.link.handler with revents } }
    active := true }

def handleEvent (loop : LinkLoop) : LinkLoop :=
  { loop with active := false }.call
    [.eventError, .eventHangup, .eventInput, .eventOutput]

/-- `doPendingFunctors` up to its loop. -/
def swapFunctors (loop : LinkLoop) : LinkLoop :=
  { loop with
    pendingFunctors := [], functors := some ([], loop.pendingFunctors) }

def startFunctor (loop : LinkLoop) : LinkLoop :=
  match loop.functors with
  | some (ran, functor :: remaining) =>
      { loop with functors := some (ran ++ [functor], remaining) }.call
        [functor.frame]
  | _ => loop

def destroyFunctors (loop : LinkLoop) : LinkLoop :=
  { loop with functors := none }

def inCallback (loop : LinkLoop) : Bool :=
  loop.stack.head?.any Frame.isCallback

/-- A functor is there to start. -/
def hasFunctor (loop : LinkLoop) : Bool :=
  match loop.functors with
  | some (_, _ :: _) => true
  | _ => false

def functorsDone (loop : LinkLoop) : Bool :=
  match loop.functors with
  | some (_, []) => true
  | _ => false

end LinkLoop

/-- `enter` is a function of the user that the loop thread runs and that has a
copy, such as a timer callback or a callback for another link.  A call made
`inLoop` comes from a function of the user in the loop thread. -/
inductive LinkAction where
  | poll (revents : EventMask)
  | handleEvent
  | exec
  | swapFunctors
  | startFunctor
  | destroyFunctors
  | enter
  | copy
  | release
  | send (inLoop : Bool) (message : List Byte)
  | shutdown (inLoop : Bool)
  | forceClose (inLoop : Bool)
  deriving DecidableEq, Repr

namespace LinkLoop

/-- Who calls a function of the link has a copy. -/
def MayCall (loop : LinkLoop) (inLoop : Bool) : Prop :=
  if inLoop then loop.inCallback = true else 0 < loop.users

instance (loop : LinkLoop) (inLoop : Bool) :
    Decidable (loop.MayCall inLoop) := by
  unfold MayCall
  infer_instance

/-- When an action may be taken.  A link that is not in the poller is not
reported, functors come after all events, and a copy is made from another. -/
def Enabled (loop : LinkLoop) : LinkAction → Prop
  | .poll _ => loop.stack.isEmpty = true ∧ loop.functors.isNone = true ∧
      loop.active = false ∧ loop.link.handler.stateInPoll = .Added
  | .handleEvent => loop.stack.isEmpty = true ∧ loop.active = true
  | .exec => loop.stack.isEmpty = false
  | .swapFunctors => loop.stack.isEmpty = true ∧
      loop.functors.isNone = true ∧ loop.active = false
  | .startFunctor => loop.stack.isEmpty = true ∧ loop.hasFunctor = true
  | .destroyFunctors => loop.stack.isEmpty = true ∧
      loop.functorsDone = true
  | .enter => loop.stack.isEmpty = true ∧ 0 < loop.users
  | .copy => loop.inMap = true ∨ 0 < loop.users ∨ loop.inCallback = true
  | .release => 0 < loop.users
  | .send inLoop _ => loop.MayCall inLoop
  | .shutdown inLoop => loop.MayCall inLoop
  | .forceClose inLoop => loop.MayCall inLoop

instance (loop : LinkLoop) (action : LinkAction) :
    Decidable (loop.Enabled action) := by
  cases action <;> unfold Enabled <;> infer_instance

def step (loop : LinkLoop) : LinkAction → Checked LinkLoop
  | .poll revents => .ok (loop.poll revents)
  | .handleEvent => .ok loop.handleEvent
  | .exec => loop.exec
  | .swapFunctors => .ok loop.swapFunctors
  | .startFunctor => .ok loop.startFunctor
  | .destroyFunctors => .ok loop.destroyFunctors
  | .enter => .ok (loop.call [.callback])
  | .copy => .ok { loop with users := loop.users + 1 }
  | .release => .ok { loop with users := loop.users - 1 }
  | .send inLoop message => .ok (loop.send inLoop message)
  | .shutdown inLoop => .ok (loop.shutdown inLoop)
  | .forceClose _ => .ok loop.forceClose

end LinkLoop

/-- The runs of a link in its loop. -/
def linkMachine : Machine LinkLoop LinkAction Fault where
  enabled := LinkLoop.Enabled
  step := LinkLoop.step

end Muduo
