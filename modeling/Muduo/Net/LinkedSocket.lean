import Muduo.Base.Buffer
import Muduo.Net.FdHandler

/-!
# Connected sockets

`LinkedSocket` with the kernel's side of its descriptor.  The answers of the
kernel to the coming `write` calls are a list that the calls consume, so every
statement about all such lists covers every pattern of partial and failed
writes.  Callbacks of the owner are functions on the link; they are called where
the source calls them.
-/

namespace Muduo

/-- Answer of one `write`; the kernel accepts at most what it is offered. -/
inductive WriteResult where
  | accepted (count : Nat)
  | failed (errno : Errno)
  deriving DecidableEq, Repr

/-- The sending side of a descriptor: the answers to come, `EWOULDBLOCK` after
the last one, and the bytes accepted so far. -/
structure Kernel where
  writes : List WriteResult
  accepted : List Byte
  deriving DecidableEq, Repr

def Kernel.write (kernel : Kernel) (data : List Byte) :
    WriteResult × Kernel :=
  match kernel.writes with
  | [] => (.failed .ewouldblock, kernel)
  | .failed errno :: writes => (.failed errno, { kernel with writes })
  | .accepted count :: writes =>
      let nwrote := min count data.length
      (.accepted nwrote,
        { writes, accepted := kernel.accepted ++ data.take nwrote })

inductive StateE where
  | kDisconnected
  | kConnected
  | kDisconnecting
  deriving DecidableEq, Repr

/-- Calls out of the link, with the output still queued at a half-close. -/
inductive LinkEvent where
  | directWrite (result : WriteResult)
  | queuedWrite (result : WriteResult)
  | writeComplete
  | highWaterMark (size : Nat)
  | shutdownWrite (queued : List Byte)
  deriving DecidableEq, Repr

structure LinkedSocket (Context : Type) where
  handler : FdHandler
  state : StateE
  highWaterMark : Nat
  inputBuffer : Buffer
  outputBuffer : Buffer
  context : Option Context
  kernel : Kernel
  trace : List LinkEvent

/-- The owner's callbacks, as what they do to the link they are called for. -/
structure LinkOwner (Context : Type) where
  delConnection : LinkedSocket Context → Checked (LinkedSocket Context)
  rcvMessage : LinkedSocket Context → Int → Checked (LinkedSocket Context)
  writeComplete : LinkedSocket Context → Checked (LinkedSocket Context)
  highWaterMark : LinkedSocket Context → Nat →
    Checked (LinkedSocket Context)

/-- What a direct write leaves to be done. -/
structure Sending where
  remaining : List Byte
  faultError : Bool
  completed : Bool

namespace LinkedSocket

variable {Context : Type}

/-- The constructor.  It leaves `highWaterMark_` as it finds it. -/
def new (fd : Int) (highWaterMark : Nat) (kernel : Kernel) :
    LinkedSocket Context :=
  { handler := .new fd
    state := .kConnected
    highWaterMark
    inputBuffer := .new kInitialSize
    outputBuffer := .new kInitialSize
    context := none
    kernel
    trace := [] }

def connected (link : LinkedSocket Context) : Bool :=
  link.state == .kConnected

def disconnected (link : LinkedSocket Context) : Bool :=
  link.state == .kDisconnected

def isWriting (link : LinkedSocket Context) : Bool := link.handler.isWriting

def setState (link : LinkedSocket Context) (state : StateE) :
    LinkedSocket Context :=
  { link with state }

def setContext (link : LinkedSocket Context) (context : Option Context) :
    LinkedSocket Context :=
  { link with context }

def record (link : LinkedSocket Context) (event : LinkEvent) :
    LinkedSocket Context :=
  { link with trace := link.trace ++ [event] }

def enableReading (link : LinkedSocket Context) : LinkedSocket Context :=
  { link with handler := link.handler.enableReading }

def enableWriting (link : LinkedSocket Context) : LinkedSocket Context :=
  { link with handler := link.handler.enableWriting }

def disableWriting (link : LinkedSocket Context) : LinkedSocket Context :=
  { link with handler := link.handler.disableWriting }

def disableAll (link : LinkedSocket Context) : LinkedSocket Context :=
  { link with handler := link.handler.disableAll }

def updateInPoll (link : LinkedSocket Context) (flag : OptFlag) :
    Checked (LinkedSocket Context) := do
  let handler ← link.handler.updateInPoll flag
  return { link with handler }

def prepare (link : LinkedSocket Context) :
    Checked (LinkedSocket Context) :=
  link.enableReading.updateInPoll .AddEvent

/-- A link after its constructor and `prepare`. -/
def registered (fd : Int) (highWaterMark : Nat) (kernel : Kernel) :
    LinkedSocket Context :=
  { new fd highWaterMark kernel with
    handler := { fd, events := kReadEvent, revents := kNoneEvent,
                 stateInPoll := .Added } }

theorem prepare_of_new {link : LinkedSocket Context} {fd : Int}
    (fresh : link.handler = .new fd) :
    link.prepare = .ok { link with
      handler := { fd, events := kReadEvent, revents := kNoneEvent,
                   stateInPoll := .Added } } := by
  have interest : kNoneEvent ||| kReadEvent = kReadEvent := by decide
  simp [prepare, updateInPoll, enableReading, fresh, FdHandler.new,
    FdHandler.enableReading, FdHandler.updateInPoll, FdHandler.updateHandler,
    interest, pure, Except.pure]

example (fd : Int) (highWaterMark : Nat) (kernel : Kernel) :
    (new fd highWaterMark kernel : LinkedSocket Context).prepare =
      .ok (registered fd highWaterMark kernel) :=
  prepare_of_new rfl

/-- The direct write of `sendInLoop`, tried when nothing is queued. -/
def writeDirectly (link : LinkedSocket Context) (data : List Byte) :
    LinkedSocket Context × Sending :=
  if !link.isWriting ∧ link.outputBuffer.readableBytes = 0 then
    let (result, kernel) := link.kernel.write data
    let link := { link with kernel }.record (.directWrite result)
    match result with
    | .accepted nwrote =>
        (link, { remaining := data.drop nwrote, faultError := false,
                 completed := (data.drop nwrote).isEmpty })
    | .failed errno =>
        (link, { remaining := data,
                 faultError := errno = .epipe ∨ errno = .econnreset,
                 completed := false })
  else
    (link, { remaining := data, faultError := false, completed := false })

/-- The owner hears of a completed direct write. -/
def reportComplete (owner : LinkOwner Context) (link : LinkedSocket Context)
    (completed : Bool) : Checked (LinkedSocket Context) :=
  if completed then owner.writeComplete (link.record .writeComplete)
  else .ok link

/-- Queueing `size` bytes reaches the high-water mark. -/
def reachesHighWater (link : LinkedSocket Context) (size : Nat) : Bool :=
  let oldLen := link.outputBuffer.readableBytes
  link.highWaterMark ≤ oldLen + size ∧ oldLen < link.highWaterMark

/-- The owner hears that queueing `size` bytes reaches the high-water mark. -/
def reportHighWater (owner : LinkOwner Context)
    (link : LinkedSocket Context) (size : Nat) :
    Checked (LinkedSocket Context) :=
  let oldLen := link.outputBuffer.readableBytes
  if link.reachesHighWater size then
    owner.highWaterMark (link.record (.highWaterMark (oldLen + size)))
      (oldLen + size)
  else .ok link

/-- The end of `sendInLoop`: queue the rest and ask for write events. -/
def queueOutput (link : LinkedSocket Context) (remaining : List Byte) :
    Checked (LinkedSocket Context) := do
  let outputBuffer ← link.outputBuffer.append remaining
  let link := { link with outputBuffer }
  if link.isWriting then
    return link
  else
    link.enableWriting.updateInPoll .ModEvent

/-- `sendInLoop` from the direct write of `length` bytes on. -/
def sendRest (owner : LinkOwner Context) (link : LinkedSocket Context)
    (length : Nat) (sending : Sending) : Checked (LinkedSocket Context) := do
  assertThat (sending.remaining.length ≤ length) .sendInLoop
  if !sending.faultError ∧ 0 < sending.remaining.length then
    let link ← link.reportHighWater owner sending.remaining.length
    link.queueOutput sending.remaining
  else
    return link

def sendInLoop (owner : LinkOwner Context) (link : LinkedSocket Context)
    (data : List Byte) : Checked (LinkedSocket Context) := do
  if link.state = .kDisconnected then
    return link
  else
    let (link, sending) := link.writeDirectly data
    let link ← link.reportComplete owner sending.completed
    link.sendRest owner data.length sending

/-- `send(const StringPiece&)` in the loop thread. -/
def send (owner : LinkOwner Context) (link : LinkedSocket Context)
    (message : List Byte) : Checked (LinkedSocket Context) :=
  if link.state = .kConnected then link.sendInLoop owner message
  else .ok link

/-- `send(Buffer*)` in the loop thread, with the caller's buffer. -/
def sendBuffer (owner : LinkOwner Context) (link : LinkedSocket Context)
    (buf : Buffer) : Checked (LinkedSocket Context × Buffer) := do
  if link.state = .kConnected then
    let link ← link.sendInLoop owner buf.content
    return (link, buf.retrieveAll)
  else
    return (link, buf)

theorem sendBuffer_of_send {owner : LinkOwner Context}
    {link after : LinkedSocket Context} {buf : Buffer}
    (sent : link.send owner buf.content = .ok after) :
    ∃ rest, link.sendBuffer owner buf = .ok (after, rest) := by
  by_cases connected : link.state = .kConnected
  · rw [send, if_pos connected] at sent
    refine ⟨buf.retrieveAll, ?_⟩
    rw [sendBuffer, if_pos connected, sent]
    rfl
  · rw [send, if_neg connected] at sent
    obtain rfl := Except.ok.inj sent
    exact ⟨buf, if_neg connected⟩

def shutdownInLoop (link : LinkedSocket Context) : LinkedSocket Context :=
  if link.isWriting then link
  else link.record (.shutdownWrite link.outputBuffer.content)

/-- `shutdown` in the loop thread. -/
def shutdown (link : LinkedSocket Context) : LinkedSocket Context :=
  if link.state = .kConnected then
    (link.setState .kDisconnecting).shutdownInLoop
  else link

/-- The write of `handleWrite` and the retrieval of what it accepted; the flag
tells that this emptied the queue. -/
def writeQueued (link : LinkedSocket Context) :
    Checked (LinkedSocket Context × Bool) := do
  let (result, kernel) := link.kernel.write link.outputBuffer.content
  let link := { link with kernel }.record (.queuedWrite result)
  match result with
  | .failed _ => return (link, false)
  | .accepted n =>
      if 0 < n then
        let outputBuffer ← link.outputBuffer.retrieve n
        return ({ link with outputBuffer }, outputBuffer.readableBytes == 0)
      else return (link, false)

def handleWrite (owner : LinkOwner Context) (link : LinkedSocket Context) :
    Checked (LinkedSocket Context) := do
  if link.isWriting then
    let (link, emptied) ← link.writeQueued
    if emptied then
      let link ← link.disableWriting.updateInPoll .ModEvent
      let link ← owner.writeComplete (link.record .writeComplete)
      if link.state = .kDisconnecting then
        return link.shutdownInLoop
      else return link
    else return link
  else return link

/-- `handleClose` up to the call of the owner. -/
def startClose (link : LinkedSocket Context) :
    Checked (LinkedSocket Context) := do
  assertThat (link.state = .kConnected ∨ link.state = .kDisconnecting)
    .handleClose
  (link.setState .kDisconnected).disableAll.updateInPoll .ModEvent

def handleClose (owner : LinkOwner Context) (link : LinkedSocket Context) :
    Checked (LinkedSocket Context) := do
  let link ← link.startClose
  owner.delConnection link

/-- `handleRead`, with what `readv` delivers.  A failed read is only logged. -/
def handleRead (owner : LinkOwner Context) (link : LinkedSocket Context)
    (outcome : Except Errno (List Byte)) (receiveTime : Int) :
    Checked (LinkedSocket Context) := do
  let inputBuffer ← link.inputBuffer.readFd outcome
  let link := { link with inputBuffer }
  match outcome with
  | .error _ => return link
  | .ok data =>
      if data = [] then link.handleClose owner
      else owner.rcvMessage link receiveTime

end LinkedSocket

end Muduo
