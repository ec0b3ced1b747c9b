import Muduo.Library.Labelled
import Muduo.Net.LinkBytes

/-!
# A link that several threads use

The calls of `send` and `shutdown` with all that may come between their steps:
other threads first look at the state, then change it and queue a functor; the
loop thread looks at it and goes on at once.  Every byte carries the number of
its message, so that it can be told which messages the kernel has got.
-/

namespace Muduo

open Library

/-- Bytes of one message on their way, and the call of `send` that handles them
if it has not returned. -/
structure Portion where
  caller : Option Nat
  bytes : List (Nat × Byte)

/-- `messages` are those of all sends that found the link connected, and `due`
the numbers of those whose sends had returned when a `shutdown` last found it
connected.  Their bytes are with the kernel, in the output buffer, in frames of
sends (the innermost first), with queued functors or in calls of other threads
that have still to queue one.  `checked` and `marked` count the calls of
`shutdown` by other threads before and after they set the state; `shutting` is
such a call of the loop thread. -/
structure SharedLink where
  loop : LinkLoop
  messages : List (List Byte)
  due : List Nat
  handed : List (Nat × Byte)
  output : List (Nat × Byte)
  frames : List Portion
  queued : List (LinkFunctor × List (Nat × Byte))
  started : List Portion
  checked : Nat
  marked : Nat
  shutting : Bool

inductive SharedAction where
  | loop (action : LinkAction)
  | startSend (message : List Byte)
  | queueSend (index : Nat)
  | sendInLoop (message : List Byte)
  | startShutdown (inLoop : Bool)
  | setDisconnecting (inLoop : Bool)
  | queueShutdown
  deriving DecidableEq, Repr

/-- The action is a whole call of a user. -/
def LinkAction.isCall : LinkAction → Bool
  | send _ _ | shutdown _ | forceClose _ => true
  | _ => false

/-- Any thread may do it, also while the loop thread is inside a call. -/
def LinkAction.isShared : LinkAction → Bool
  | copy | release => true
  | _ => false

namespace SharedLink

def new (loop : LinkLoop) : SharedLink :=
  { loop, messages := [], due := [], handed := [], output := [], frames := []
    queued := loop.waiting.map fun functor => (functor, [])
    started := [], checked := 0, marked := 0, shutting := false }

/-- The sends that have not returned. -/
def running (shared : SharedLink) : List Nat :=
  (shared.frames ++ shared.started).filterMap Portion.caller

def returned (shared : SharedLink) : List Nat :=
  (List.range shared.messages.length).filter (· ∉ shared.running)

/-- The calls of other threads; each caller has a copy of its own. -/
def calling (shared : SharedLink) : Nat :=
  shared.started.length + shared.checked + shared.marked

/-- The bytes that a frame takes over follow those handed over and those queued;
they keep their order when the frame moves them on. -/
def moved (shared : SharedLink) (next : LinkLoop) (bytes : List (Nat × Byte))
    (frames : List (Nat × Byte) → List Portion) : SharedLink :=
  let whole := shared.handed ++ shared.output ++ bytes
  let given := next.link.kernel.accepted.length
  let left := next.link.outputBuffer.content.length
  { shared with
    loop := next
    handed := whole.take given
    output := (whole.drop given).take left
    frames := frames (whole.drop (given + left)) }

/-- The frame at the top has had its turn; what it has left goes to the frame of
the same send that it leaves, if there is one. -/
def turn (shared : SharedLink) (next : LinkLoop) : SharedLink :=
  match shared.loop.stack, shared.frames with
  | frame :: stack, portion :: portions =>
      if frame.sends then
        shared.moved next portion.bytes fun rest =>
          if stack.countP Frame.sends < next.stack.countP Frame.sends then
            { portion with bytes := rest } :: portions
          else portions
      else shared.moved next [] fun _ => shared.frames
  | _, _ => shared.moved next [] fun _ => shared.frames

/-- The first functor has started; its send returned when it was queued. -/
def starts (shared : SharedLink) (next : LinkLoop) : SharedLink :=
  match shared.queued with
  | (functor, bytes) :: queued =>
      { shared with
        loop := next, queued
        frames :=
          if functor.frame.sends then { caller := none, bytes } :: shared.frames
          else shared.frames }
  | [] => { shared with loop := next }

/-- What a step of the loop does to the bytes. -/
def follow (shared : SharedLink) (next : LinkLoop) :
    LinkAction → SharedLink
  | .exec => shared.turn next
  | .startFunctor => shared.starts next
  | _ => { shared with loop := next }

/-- A send of another thread that finds the link connected. -/
def startSend (shared : SharedLink) (message : List Byte) : SharedLink :=
  let number := shared.messages.length
  { shared with
    messages := shared.messages ++ [message]
    started := shared.started ++
      [{ caller := some number, bytes := labelled number message }] }

/-- The send queues its functor and returns. -/
def queueSend (shared : SharedLink) (index : Nat) : SharedLink :=
  match shared.started[index]? with
  | some portion =>
      let functor := LinkFunctor.sendInLoop (portion.bytes.map Prod.snd)
      { shared with
        loop := shared.loop.queueInLoop functor
        queued := shared.queued ++ [(functor, portion.bytes)]
        started := shared.started.eraseIdx index }
  | none => shared

/-- A send of the loop thread that finds the link connected. -/
def sendInLoop (shared : SharedLink) (message : List Byte) : SharedLink :=
  let number := shared.messages.length
  { shared with
    loop := shared.loop.call [.sendInLoop message]
    messages := shared.messages ++ [message]
    frames := { caller := some number, bytes := labelled number message } ::
      shared.frames }

/-- A shutdown that finds the link connected. -/
def startShutdown (shared : SharedLink) (inLoop : Bool) : SharedLink :=
  if inLoop then
    { shared with due := shared.returned, shutting := true }
  else
    { shared with due := shared.returned, checked := shared.checked + 1 }

/-- The shutdown sets the state; in the loop thread it goes on at once. -/
def setDisconnecting (shared : SharedLink) (inLoop : Bool) : SharedLink :=
  let loop := shared.loop.setLink
    (shared.loop.link.setState .kDisconnecting)
  if inLoop then
    { shared with loop := loop.call [.shutdownInLoop], shutting := false }
  else
    { shared with
      loop, checked := shared.checked - 1, marked := shared.marked + 1 }

/-- The shutdown of another thread queues its functor and returns. -/
def queueShutdown (shared : SharedLink) : SharedLink :=
  { shared with
    loop := shared.loop.queueInLoop .shutdownInLoop
    queued := shared.queued ++ [(.shutdownInLoop, [])]
    marked := shared.marked - 1 }

/-- Calls that find the link no longer connected do nothing; they are no steps. -/
def Enabled (shared : SharedLink) : SharedAction → Prop
  | .loop action =>
      linkMachine.enabled shared.loop action ∧ action.isCall = false ∧
        (shared.shutting = true → action.isShared = true) ∧
        (action = .release → shared.calling < shared.loop.users)
  | .startSend _ => shared.loop.link.state = .kConnected ∧
      shared.calling < shared.loop.users
  | .queueSend index => index < shared.started.length
  | .sendInLoop _ => shared.loop.link.state = .kConnected ∧
      shared.loop.inCallback = true ∧ shared.shutting = false
  | .startShutdown true => shared.loop.link.state = .kConnected ∧
      shared.loop.inCallback = true ∧ shared.shutting = false
  | .startShutdown false => shared.loop.link.state = .kConnected ∧
      shared.calling < shared.loop.users
  | .setDisconnecting true => shared.shutting = true
  | .setDisconnecting false => 0 < shared.checked
  | .queueShutdown => 0 < shared.marked

def step (shared : SharedLink) : SharedAction → Checked SharedLink
  | .loop action => do
      let next ← linkMachine.step shared.loop action
      return shared.follow next action
  | .startSend message => .ok (shared.startSend message)
  | .queueSend index => .ok (shared.queueSend index)
  | .sendInLoop message => .ok (shared.sendInLoop message)
  | .startShutdown inLoop => .ok (shared.startShutdown inLoop)
  | .setDisconnecting inLoop => .ok (shared.setDisconnecting inLoop)
  | .queueShutdown => .ok shared.queueShutdown

end SharedLink

/-- The runs of a link that several threads use. -/
def sharedMachine : Machine SharedLink SharedAction Fault where
  enabled := SharedLink.Enabled
  step := SharedLink.step

namespace SharedLink

variable {shared : SharedLink}

/-- A send that nothing interrupts is the call of the link. -/
theorem send_uninterrupted (connected :
      shared.loop.link.state = .kConnected) (message : List Byte) :
    ((shared.startSend message).queueSend shared.started.length).loop =
        shared.loop.send false message ∧
      (shared.sendInLoop message).loop = shared.loop.send true message := by
  have found : (shared.started ++
      [{ caller := some shared.messages.length,
         bytes := labelled shared.messages.length message }])[
        shared.started.length]? =
      some { caller := some shared.messages.length,
             bytes := labelled shared.messages.length message } := by
    simp
  constructor
  · simp only [queueSend, startSend, found, map_snd_labelled]
    simp [LinkLoop.send, connected]
  · simp [sendInLoop, LinkLoop.send, connected]

theorem shutdown_uninterrupted
    (connected : shared.loop.link.state = .kConnected) :
    (((shared.startShutdown false).setDisconnecting false).queueShutdown).loop =
        shared.loop.shutdown false ∧
      ((shared.startShutdown true).setDisconnecting true).loop =
        shared.loop.shutdown true := by
  constructor
  · simp [queueShutdown, setDisconnecting, startShutdown, LinkLoop.shutdown,
      connected]
  · simp [setDisconnecting, startShutdown, LinkLoop.shutdown, connected]

end SharedLink

end Muduo
