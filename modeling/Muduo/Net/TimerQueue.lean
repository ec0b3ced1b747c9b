import Muduo.Base.Assert
import Muduo.Base.Timer
import Muduo.Library.Machine
import Muduo.Library.OrderedSet
import Muduo.Library.Ownership
import Mathlib.Algebra.Group.Nat.Defs

/-!
# The timer queue

`TimerQueue` with the memory its timers live in, the clock and the kernel timer
it arms.  A `Timer*` is an address; the functions of the queue fail where they
would use or delete a timer that is not allocated.
-/

namespace Muduo

open Library

/-- No object has this address; `getExpired` uses it in its sentry. -/
def UINTPTR_MAX : Nat := 2 ^ 64 - 1

/-- A one-shot kernel timer: the deadline it is armed for, until it is read
after it has expired, and the time of the last `timerfd_settime`. -/
structure Timerfd where
  deadline : Option Timestamp
  setAt : Timestamp
  deriving DecidableEq, Repr

structure TimerQueue where
  timers : OrderedSet Entry
  activeTimers : OrderedSet ActiveTimer
  callingExpiredTimers : Bool
  cancelingTimers : OrderedSet ActiveTimer
  timerfd : Timerfd
  clock : Timestamp
  heap : Nat → Option Timer
  deleted : List TimerId

namespace TimerQueue

def new (clock : Timestamp) : TimerQueue :=
  { timers := .empty, activeTimers := .empty, callingExpiredTimers := false
    cancelingTimers := .empty
    timerfd := { deadline := none, setAt := 0 }
    clock, heap := fun _ => none, deleted := [] }

/-- Memory with a timer at an address. -/
def store (queue : TimerQueue) (address : Nat) (timer : Timer) : TimerQueue :=
  { queue with heap := write queue.heap address (some timer) }

/-- Following a `Timer*`. -/
def load (queue : TimerQueue) (address : Nat) : Checked Timer :=
  match queue.heap address with
  | some timer => .ok timer
  | none => .error .timerLoad

def delete (queue : TimerQueue) (address : Nat) : Checked TimerQueue :=
  match queue.heap address with
  | some timer => .ok { queue with
      heap := write queue.heap address none
      deleted := queue.deleted ++ [⟨address, timer.sequence⟩] }
  | none => .error .timerDelete

/-- In microseconds, which a `timespec` holds exactly. -/
def howMuchTimeFromNow (now when : Timestamp) : Int :=
  if when - now < 100 then 100 else when - now

def resetTimerfd (queue : TimerQueue) (expiration : Timestamp) :
    TimerQueue :=
  { queue with timerfd :=
      { deadline :=
          some (queue.clock + howMuchTimeFromNow queue.clock expiration)
        setAt := queue.clock } }

/-- The timer has expired and was not read since. -/
def readable (queue : TimerQueue) : Bool :=
  queue.timerfd.deadline.any (· ≤ queue.clock)

/-- Reading disarms an expired timer; before the deadline the read fails. -/
def readTimerfd (queue : TimerQueue) : TimerQueue :=
  if queue.readable then
    { queue with timerfd := { queue.timerfd with deadline := none } }
  else queue

def setTimers (queue : TimerQueue) (timers : OrderedSet Entry) :
    TimerQueue :=
  { queue with timers }

def setActiveTimers (queue : TimerQueue)
    (activeTimers : OrderedSet ActiveTimer) : TimerQueue :=
  { queue with activeTimers }

def setClock (queue : TimerQueue) (clock : Timestamp) : TimerQueue :=
  { queue with clock }

/-- `insert`, with the flag `earliestChanged`. -/
def insert (queue : TimerQueue) (address : Nat) :
    Checked (Bool × TimerQueue) := do
  assertThat (queue.timers.size = queue.activeTimers.size) .insertSizes
  let timer ← queue.load address
  let earliestChanged :=
    queue.timers.first?.all (fun entry => timer.expiration < entry.first)
  let (timers, newTimer) := queue.timers.insert ⟨timer.expiration, address⟩
  assertThat (newTimer = true) .insertTimers
  let (activeTimers, newActive) :=
    queue.activeTimers.insert ⟨address, timer.sequence⟩
  assertThat (newActive = true) .insertActiveTimers
  assertThat (timers.size = activeTimers.size) .insertSizesAfter
  return (earliestChanged,
    (queue.setTimers timers).setActiveTimers activeTimers)

/-- The end of `addTimerInLoop`. -/
def armIf (queue : TimerQueue) (earliestChanged : Bool) (address : Nat) :
    Checked TimerQueue :=
  if earliestChanged then do
    let timer ← queue.load address
    return queue.resetTimerfd timer.expiration
  else .ok queue

def addTimerInLoop (queue : TimerQueue) (address : Nat) :
    Checked TimerQueue := do
  let (earliestChanged, queue) ← queue.insert address
  queue.armIf earliestChanged address

/-- The branch of `cancelInLoop` for an active timer. -/
def cancelActive (queue : TimerQueue) (timer : ActiveTimer) :
    Checked TimerQueue := do
  let expiring ← queue.load timer.timer
  let (timers, n) := queue.timers.erase ⟨expiring.expiration, timer.timer⟩
  assertThat (n = 1) .cancelErase
  let queue ← (queue.setTimers timers).delete timer.timer
  return queue.setActiveTimers (queue.activeTimers.erase timer).1

def cancelBranch (queue : TimerQueue) (timer : ActiveTimer) :
    Checked TimerQueue :=
  if timer ∈ queue.activeTimers then queue.cancelActive timer
  else if queue.callingExpiredTimers then
    .ok { queue with
      cancelingTimers := (queue.cancelingTimers.insert timer).1 }
  else .ok queue

def cancelInLoop (queue : TimerQueue) (timerId : TimerId) :
    Checked TimerQueue := do
  assertThat (queue.timers.size = queue.activeTimers.size) .cancelSizes
  let queue ← queue.cancelBranch timerId
  assertThat (queue.timers.size = queue.activeTimers.size) .cancelSizesAfter
  return queue

/-- One turn of the loop in `getExpired`. -/
def deactivate (queue : TimerQueue) (entry : Entry) : Checked TimerQueue := do
  let timer ← queue.load entry.second
  let (activeTimers, n) :=
    queue.activeTimers.erase ⟨entry.second, timer.sequence⟩
  assertThat (n = 1) .getExpiredErase
  return queue.setActiveTimers activeTimers

def sentry (now : Timestamp) : Entry :=
  { first := now, second := UINTPTR_MAX }

def getExpired (queue : TimerQueue) (now : Timestamp) :
    Checked (List Entry × TimerQueue) := do
  assertThat (queue.timers.size = queue.activeTimers.size) .getExpiredSizes
  let rest := queue.timers.fromBound (sentry now)
  assertThat (rest.first?.all (fun entry => now < entry.first) = true)
    .getExpiredSentry
  let expired := queue.timers.below (sentry now)
  let queue ← expired.foldlM deactivate (queue.setTimers rest)
  assertThat (queue.timers.size = queue.activeTimers.size)
    .getExpiredSizesAfter
  return (expired, queue)

/-- `handleRead` up to the loop over the callbacks. -/
def startCalling (queue : TimerQueue) (now : Timestamp) :
    Checked (List Entry × TimerQueue) := do
  let (expired, queue) ← queue.readTimerfd.getExpired now
  return (expired, { queue with
    callingExpiredTimers := true, cancelingTimers := .empty })

/-- `handleRead` between the loop over the callbacks and `reset`. -/
def stopCalling (queue : TimerQueue) : TimerQueue :=
  { queue with callingExpiredTimers := false }

/-- One turn of the loop in `reset`. -/
def resetOne (queue : TimerQueue) (now : Timestamp) (entry : Entry) :
    Checked TimerQueue := do
  let timer ← queue.load entry.second
  if timer.repeats = true ∧
      ⟨entry.second, timer.sequence⟩ ∉ queue.cancelingTimers then
    let (_, queue) ←
      (queue.store entry.second (timer.restart now)).insert entry.second
    return queue
  else queue.delete entry.second

/-- The expiration of the first timer, invalid if there is none. -/
def nextExpire (queue : TimerQueue) : Checked Timestamp :=
  match queue.timers.first? with
  | some entry => do
      let timer ← queue.load entry.second
      return timer.expiration
  | none => .ok Timestamp.invalid

/-- The end of `reset`. -/
def finishReset (queue : TimerQueue) : Checked TimerQueue := do
  let nextExpire ← queue.nextExpire
  if nextExpire.valid then
    return queue.resetTimerfd nextExpire
  else
    return queue

end TimerQueue

/-- A timer with its address. -/
structure Located where
  address : Nat
  timer : Timer
  deriving DecidableEq, Repr

namespace Located

def id (located : Located) : TimerId :=
  { timer := located.address, sequence := located.timer.sequence }

def entry (located : Located) : Entry :=
  { first := located.timer.expiration, second := located.address }

end Located

/-- Where `handleRead` is: not running, running the callbacks of the expired
batch, or resetting what is left of it. -/
inductive Phase where
  | idle
  | calling (now : Timestamp) (ran remaining : List Entry)
  | resetting (now : Timestamp) (remaining : List Entry)
  deriving DecidableEq, Repr

namespace Phase

/-- The entries of the batch that `reset` has still to process. -/
def batch : Phase → List Entry
  | idle => []
  | calling _ ran remaining => ran ++ remaining
  | resetting _ remaining => remaining

/-- Callbacks, and other functions of the loop, may call the queue. -/
def CallsQueue : Phase → Prop
  | idle => True
  | calling _ ran _ => ran ≠ []
  | resetting _ _ => False

instance (phase : Phase) : Decidable phase.CallsQueue := by
  cases phase <;> unfold CallsQueue <;> infer_instance

def isCalling : Phase → Bool
  | calling _ _ _ => true
  | _ => false

def hasCallback : Phase → Bool
  | calling _ _ (_ :: _) => true
  | _ => false

def callbacksDone : Phase → Bool
  | calling _ _ [] => true
  | _ => false

def hasReset : Phase → Bool
  | resetting _ (_ :: _) => true
  | _ => false

def resetsDone : Phase → Bool
  | resetting _ [] => true
  | _ => false

end Phase

/-- What happened to timers: one was added or ran, a cancel was asked for. -/
inductive TimerEvent where
  | added (located : Located)
  | cancelled (timerId : TimerId)
  | ran (located : Located) (now : Timestamp)
  deriving DecidableEq, Repr

/-- The loop thread of a queue: the queue, the timers that were created and not
yet added, how many were created, and what happened so far. -/
structure TimerLoop where
  queue : TimerQueue
  phase : Phase
  pending : List Nat
  numCreated : Nat
  history : List TimerEvent

/-- `create` is the part of `addTimer` that any thread may do, with the address
that the allocator finds; `addTimerInLoop` follows in the loop thread.  The
steps of `handleRead` come one by one, so that callbacks can act in between;
`setClock` is time going on. -/
inductive TimerAction where
  | create (address : Nat) (when : Timestamp) (interval : Interval)
  | addTimerInLoop (address : Nat)
  | cancelInLoop (timerId : TimerId)
  | startCalling
  | runCallback
  | stopCalling
  | resetOne
  | finishReset
  | setClock (clock : Timestamp)
  deriving DecidableEq, Repr

namespace TimerLoop

def new (clock : Timestamp) : TimerLoop :=
  { queue := .new clock, phase := .idle, pending := [], numCreated := 0
    history := [] }

/-- When an action may be taken, if the clock may move as told. -/
def Enabled (mayMove : Timestamp → Timestamp → Prop) (loop : TimerLoop) :
    TimerAction → Prop
  | .create address _ _ =>
      loop.queue.heap address = none ∧ address < UINTPTR_MAX
  | .addTimerInLoop address => address ∈ loop.pending ∧ loop.phase.CallsQueue
  | .cancelInLoop _ => loop.phase.CallsQueue
  | .startCalling => loop.phase = .idle
  | .runCallback => loop.phase.hasCallback = true
  | .stopCalling => loop.phase.callbacksDone = true
  | .resetOne => loop.phase.hasReset = true
  | .finishReset => loop.phase.resetsDone = true
  | .setClock clock => mayMove loop.queue.clock clock

instance (mayMove : Timestamp → Timestamp → Prop) [DecidableRel mayMove]
    (loop : TimerLoop) (action : TimerAction) :
    Decidable (loop.Enabled mayMove action) := by
  cases action <;> unfold Enabled <;> infer_instance

def step (loop : TimerLoop) : TimerAction → Checked TimerLoop
  | .create address when interval => .ok { loop with
      queue := loop.queue.store address
        (.new when interval (loop.numCreated + 1))
      pending := address :: loop.pending
      numCreated := loop.numCreated + 1 }
  | .addTimerInLoop address => do
      let timer ← loop.queue.load address
      let queue ← loop.queue.addTimerInLoop address
      return { loop with
        queue
        pending := loop.pending.erase address
        history := loop.history ++ [.added ⟨address, timer⟩] }
  | .cancelInLoop timerId => do
      let queue ← loop.queue.cancelInLoop timerId
      return { loop with
        queue, history := loop.history ++ [.cancelled timerId] }
  | .startCalling => do
      let now := loop.queue.clock
      let (expired, queue) ← loop.queue.startCalling now
      return { loop with queue, phase := .calling now [] expired }
  | .runCallback =>
      match loop.phase with
      | .calling now ran (entry :: remaining) => do
          let timer ← loop.queue.load entry.second
          return { loop with
            phase := .calling now (ran ++ [entry]) remaining
            history := loop.history ++ [.ran ⟨entry.second, timer⟩ now] }
      | _ => .ok loop
  | .stopCalling =>
      match loop.phase with
      | .calling now ran [] => .ok { loop with
          queue := loop.queue.stopCalling, phase := .resetting now ran }
      | _ => .ok loop
  | .resetOne =>
      match loop.phase with
      | .resetting now (entry :: remaining) => do
          let queue ← loop.queue.resetOne now entry
          return { loop with queue, phase := .resetting now remaining }
      | _ => .ok loop
  | .finishReset => do
      let queue ← loop.queue.finishReset
      return { loop with queue, phase := .idle }
  | .setClock clock => .ok { loop with queue := loop.queue.setClock clock }

end TimerLoop

/-- The runs of a queue in its loop thread; `mayMove` tells which changes of the
clock can be observed. -/
def timerMachine (mayMove : Timestamp → Timestamp → Prop) :
    Machine TimerLoop TimerAction Fault where
  enabled := TimerLoop.Enabled mayMove
  step := TimerLoop.step

end Muduo
