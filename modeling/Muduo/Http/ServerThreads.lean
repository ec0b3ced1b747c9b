import Muduo.Http.ServerAsserts
import Muduo.Library.Machine

/-!
# A new connection in two threads

`HttpServer` with io threads.  The main thread is in `newConnection` for one
link; the io thread that the link was given to prepares it, reads and closes it.
The threads take turns at the map `name2connection` and at the context of the
link, one access at a time.
-/

namespace Muduo

open Library

/-- What the main thread does next in `newConnection`.  At `checking` it has
taken a pointer from the map, which is null unless the name was `found`. -/
inductive MainPhase where
  | inserting
  | queueing
  | finding
  | looking
  | checking (found : Bool)
  | setting
  | returned
  deriving DecidableEq, Repr

/-- Where the io thread is with the link.  At `received` it has read and calls
`rcvMessage` next; at `closing` it calls `delConnection`, whose first step has
been taken at `deleted`. -/
inductive IoPhase where
  | unqueued
  | queued
  | idle
  | received (receiveTime : Timestamp)
  | closing
  | deleted
  | closed
  deriving DecidableEq, Repr

def IoPhase.isReceived : IoPhase → Bool
  | .received _ => true
  | .unqueued | .queued | .idle | .closing | .deleted | .closed => false

/-- The part of `HttpServer` that one new connection is about: whether its name
is in `name2connection`, the link with what was dispatched for it, all the bytes
read from it, and how often its `HttpContext` was allocated and freed. -/
structure ServerThreads where
  main : MainPhase
  io : IoPhase
  mapped : Bool
  conn : HttpConnection
  received : List Byte
  allocated : Nat
  freed : Nat

inductive ServerAction where
  | newConnection
  | prepare
  | read (chunk : Chunk)
  | rcvMessage
  | handleClose
  | delContext
  | erase
  deriving DecidableEq

namespace ServerThreads

/-- The link is constructed, and nobody else knows of it. -/
def start (fd : Int) (highWaterMark : Nat) (writes : List WriteResult) :
    ServerThreads :=
  { main := .inserting
    io := .unqueued
    mapped := false
    conn := { link := .new fd highWaterMark { writes, accepted := [] }
              dispatched := [] }
    received := []
    allocated := 0
    freed := 0 }

/-- The next step of the main thread: `TcpServer::newConnection` inserts the link
and queues `prepare`, then `HttpServer::newConnection` looks it up again.  The
lookup with `operator[]` inserts a null pointer if the name is missing. -/
def newConnection (state : ServerThreads) : Checked ServerThreads :=
  match state.main with
  | .inserting => do
      assertThat (state.mapped = false) .newConnectionInsert
      return { state with main := .queueing, mapped := true }
  | .queueing => .ok { state with main := .finding, io := .queued }
  | .finding => do
      assertThat (state.mapped = true) .newConnectionFind
      return { state with main := .looking }
  | .looking =>
      .ok { state with main := .checking state.mapped, mapped := true }
  | .checking found => do
      assertThat (found = true) .linkUse
      if state.conn.link.connected then
        return { state with main := .setting }
      else
        return { state with main := .returned }
  | .setting =>
      let link := state.conn.link.setContext (some .new)
      .ok { state with
        main := .returned
        conn := { state.conn with link }
        allocated := state.allocated + 1 }
  | .returned => .ok state

def prepare (state : ServerThreads) : Checked ServerThreads := do
  let link ← state.conn.link.prepare
  return { state with io := .idle, conn := { state.conn with link } }

/-- A read of a chunk in `LinkedSocket::handleRead`, up to the owner's call. -/
def read (state : ServerThreads) (chunk : Chunk) : Checked ServerThreads := do
  let inputBuffer ← state.conn.link.inputBuffer.readFd (.ok chunk.bytes)
  let link := { state.conn.link with inputBuffer }
  return { state with
    io := .received chunk.receiveTime
    conn := { state.conn with link }
    received := state.received ++ chunk.bytes }

def rcvMessage (owner : LinkOwner HttpContext) (httpCallback : HttpCallback)
    (state : ServerThreads) : Checked ServerThreads :=
  match state.io with
  | .received receiveTime => do
      let conn ← HttpServer.rcvMessage owner httpCallback state.conn receiveTime
      return { state with io := .idle, conn }
  | .unqueued | .queued | .idle | .closing | .deleted | .closed => .ok state

/-- `LinkedSocket::handleClose`, up to the owner's call. -/
def handleClose (state : ServerThreads) : Checked ServerThreads := do
  let link ← state.conn.link.startClose
  return { state with io := .closing, conn := { state.conn with link } }

/-- `HttpServer::delConnection` deletes the context if there is one; the link
keeps the pointer. -/
def delContext (state : ServerThreads) : ServerThreads :=
  { state with
    io := .deleted
    freed := state.freed + if state.conn.link.context.isSome then 1 else 0 }

/-- `TcpServer::delConnection`. -/
def erase (state : ServerThreads) : ServerThreads :=
  { state with io := .closed, mapped := false }

def step (owner : LinkOwner HttpContext) (httpCallback : HttpCallback)
    (state : ServerThreads) : ServerAction → Checked ServerThreads
  | .newConnection => state.newConnection
  | .prepare => state.prepare
  | .read chunk => state.read chunk
  | .rcvMessage => state.rcvMessage owner httpCallback
  | .handleClose => state.handleClose
  | .delContext => .ok state.delContext
  | .erase => .ok state.erase

/-- A read of no bytes is a close. -/
def Enabled (state : ServerThreads) : ServerAction → Prop
  | .newConnection => state.main ≠ .returned
  | .prepare => state.io = .queued
  | .read chunk => state.io = .idle ∧ chunk.bytes ≠ []
  | .rcvMessage => state.io.isReceived = true
  | .handleClose => state.io = .idle
  | .delContext => state.io = .closing
  | .erase => state.io = .deleted

/-- Both threads, in any order of their steps. -/
def machine (owner : LinkOwner HttpContext) (httpCallback : HttpCallback) :
    Machine ServerThreads ServerAction Fault where
  enabled := Enabled
  step := step owner httpCallback

instance decidableEnabled (owner : LinkOwner HttpContext)
    (httpCallback : HttpCallback) (state : ServerThreads)
    (action : ServerAction) :
    Decidable ((machine owner httpCallback).enabled state action) := by
  cases action <;> unfold machine Enabled <;> infer_instance

end ServerThreads

end Muduo
