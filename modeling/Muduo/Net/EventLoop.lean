import Muduo.Library.BatchQueue
import Muduo.Library.Machine

/-!
# The loop of an event loop

`EventLoop::loop` with `doPendingFunctors`, cut at every access to a field that
another thread reads or writes, and the calls of `queueInLoop`, `runInLoop` and
`quit` by the loop thread and by other threads.  A functor or a handler is known
by the calls it makes while it runs.  The eventfd is its counter.
-/

namespace Muduo

open Library

universe u

/-- The fields of an `EventLoop`, with the counter of its eventfd. -/
structure EventLoop (Functor : Type u) where
  looping : Bool
  quit : Bool
  functorPending : Bool
  pollCounter : Nat
  wakeupFd : Nat
  pendingFunctors : List Functor

/-- Where the loop thread stands; each point is named for what comes next. -/
inductive LoopPoint where
  | outside
  | testLooping
  | setLooping
  | clearQuit
  | testQuit
  | poll
  | events
  | setPending
  | swap
  | functors
  | functor
  | clearPending
  | clearLooping
  deriving DecidableEq, Repr

namespace LoopPoint

/-- A call of `doPendingFunctors` is under way. -/
@[simp] def inPending : LoopPoint → Bool
  | setPending | swap | functors | functor | clearPending => true
  | _ => false

/-- A call of `doPendingFunctors` has taken over its functors. -/
@[simp] def afterSwap : LoopPoint → Bool
  | functors | functor | clearPending => true
  | _ => false

/-- `functorPending_` is set. -/
@[simp] def pendingSet : LoopPoint → Bool
  | swap | functors | functor | clearPending => true
  | _ => false

/-- `loop` was called and has not set its flags. -/
@[simp] def starting : LoopPoint → Bool
  | testLooping | setLooping | clearQuit => true
  | _ => false

/-- A poll of this call of `loop` is over. -/
@[simp] def polled : LoopPoint → Bool
  | events | setPending | swap | functors | functor | clearPending => true
  | _ => false

/-- Code of the user runs in the loop thread. -/
@[simp] def inUser : LoopPoint → Bool
  | outside | events | functor => true
  | _ => false

end LoopPoint

inductive LoopCaller where
  | loopThread
  | otherThread
  deriving DecidableEq, Repr

/-- An `EventLoop` with its threads.  `functors` are those of the local vector of
`doPendingFunctors` that have not started; `polls` counts the polls of this call
of `loop`; `readable` says that the eventfd was reported and not yet read.
`testing` is a `queueInLoop` of the loop thread before its test, `awaiting` are
those of other threads before their `wakeupWrite`, `quitting` their calls of
`quit` before `wakeup`.  The rest is history. -/
structure LoopThread (Functor : Type u) where
  loop : EventLoop Functor
  point : LoopPoint
  functors : List Functor
  polls : Nat
  readable : Bool
  testing : Bool
  awaiting : Nat
  quitting : Nat
  calls : Nat
  pushed : List Functor
  executed : List Functor
  quits : Nat

inductive LoopAction (Functor : Type u) where
  | enter
  | advance
  | poll (readable : Bool)
  | handleRead
  | queueInLoop (caller : LoopCaller) (functor : Functor)
  | testWakeup
  | wakeupWrite
  | runInLoop (caller : LoopCaller) (functor : Functor)
  | quit (caller : LoopCaller)
  | quitWakeup

variable {Functor : Type u}

namespace EventLoop

def new : EventLoop Functor :=
  { looping := false
    quit := false
    functorPending := false
    pollCounter := 0
    wakeupFd := 0
    pendingFunctors := [] }

def wakeupWrite (loop : EventLoop Functor) : EventLoop Functor :=
  { loop with wakeupFd := loop.wakeupFd + 1 }

/-- `WakeupFd::handleRead`. -/
def wakeupRead (loop : EventLoop Functor) : EventLoop Functor :=
  { loop with wakeupFd := 0 }

def push (loop : EventLoop Functor) (functor : Functor) : EventLoop Functor :=
  { loop with pendingFunctors := loop.pendingFunctors ++ [functor] }

end EventLoop

namespace LoopThread

/-- An `EventLoop` that was just constructed. -/
def new : LoopThread Functor :=
  { loop := .new
    point := .outside
    functors := []
    polls := 0
    readable := false
    testing := false
    awaiting := 0
    quitting := 0
    calls := 0
    pushed := []
    executed := []
    quits := 0 }

def queue (thread : LoopThread Functor) : BatchQueue Functor :=
  { batch := thread.functors, pending := thread.loop.pendingFunctors }

@[simp] def goto (thread : LoopThread Functor) (point : LoopPoint) :
    LoopThread Functor :=
  { thread with point }

/-- The next statement of the loop thread. -/
def advance (thread : LoopThread Functor) : LoopThread Functor :=
  match thread.point with
  | .outside => thread
  | .testLooping =>
      if thread.loop.looping then thread.goto .outside
      else thread.goto .setLooping
  | .setLooping =>
      { thread with loop := { thread.loop with looping := true }
                    point := .clearQuit }
  | .clearQuit =>
      { thread with loop := { thread.loop with quit := false }
                    point := .testQuit }
  | .testQuit =>
      if thread.loop.quit then thread.goto .clearLooping
      else thread.goto .poll
  | .poll => thread
  | .events =>
      { thread with calls := thread.calls + 1, point := .setPending }
  | .setPending =>
      { thread with loop := { thread.loop with functorPending := true }
                    point := .swap }
  | .swap =>
      { thread with
        functors := thread.loop.pendingFunctors
        loop := { thread.loop with pendingFunctors := [] }
        point := .functors }
  | .functors =>
      match thread.functors with
      | [] => thread.goto .clearPending
      | functor :: functors =>
          { thread with
            functors
            executed := thread.executed ++ [functor]
            point := .functor }
  | .functor => thread.goto .functors
  | .clearPending =>
      { thread with loop := { thread.loop with functorPending := false }
                    point := .testQuit }
  | .clearLooping =>
      { thread with loop := { thread.loop with looping := false }
                    point := .outside }

/-- `queueInLoop` up to its wake-up. -/
def queueInLoop (thread : LoopThread Functor) (caller : LoopCaller)
    (functor : Functor) : LoopThread Functor :=
  let thread := { thread with
    loop := thread.loop.push functor
    pushed := thread.pushed ++ [functor] }
  match caller with
  | .loopThread => { thread with testing := true }
  | .otherThread => { thread with awaiting := thread.awaiting + 1 }

/-- The test of `queueInLoop` in the loop thread. -/
def testWakeup (thread : LoopThread Functor) : LoopThread Functor :=
  { thread with
    loop := if thread.loop.functorPending then thread.loop.wakeupWrite
      else thread.loop
    testing := false }

/-- In the loop thread the functor runs at once: its calls are those of the code
that runs already. -/
def runInLoop (thread : LoopThread Functor) (caller : LoopCaller)
    (functor : Functor) : LoopThread Functor :=
  match caller with
  | .loopThread => thread
  | .otherThread => thread.queueInLoop .otherThread functor

/-- `quit` up to its wake-up. -/
def quit (thread : LoopThread Functor) (caller : LoopCaller) :
    LoopThread Functor :=
  let thread := { thread with loop := { thread.loop with quit := true } }
  match caller with
  | .loopThread => { thread with quits := thread.quits + 1 }
  | .otherThread => { thread with quitting := thread.quitting + 1 }

def step (thread : LoopThread Functor) :
    LoopAction Functor → LoopThread Functor
  | .enter => { thread with polls := 0, point := .testLooping }
  | .advance => thread.advance
  | .poll readable =>
      { thread with
        loop := { thread.loop with pollCounter := thread.loop.pollCounter + 1 }
        polls := thread.polls + 1
        readable
        point := .events }
  | .handleRead =>
      { thread with loop := thread.loop.wakeupRead, readable := false }
  | .queueInLoop caller functor => thread.queueInLoop caller functor
  | .testWakeup => thread.testWakeup
  | .wakeupWrite =>
      { thread with
        loop := thread.loop.wakeupWrite
        awaiting := thread.awaiting - 1 }
  | .runInLoop caller functor => thread.runInLoop caller functor
  | .quit caller => thread.quit caller
  | .quitWakeup =>
      { thread with
        loop := thread.loop.wakeupWrite
        quitting := thread.quitting - 1
        quits := thread.quits + 1 }

/-- The loop thread is in code of the user and may make a call. -/
def MayCall (thread : LoopThread Functor) : LoopCaller → Prop
  | .loopThread => thread.point.inUser = true ∧ thread.testing = false
  | .otherThread => True

/-- What may happen next.  The eventfd is reported while its counter is positive;
a poll may miss it when other descriptors fill the list of events. -/
def Enabled (thread : LoopThread Functor) : LoopAction Functor → Prop
  | .enter => thread.point = .outside ∧ thread.testing = false
  | .advance => thread.point ≠ .outside ∧ thread.point ≠ .poll ∧
      thread.testing = false ∧
      (thread.point = .events → thread.readable = false)
  | .poll readable => thread.point = .poll ∧
      (readable = true → 0 < thread.loop.wakeupFd)
  | .handleRead => thread.point = .events ∧ thread.testing = false ∧
      thread.readable = true
  | .queueInLoop caller _ => thread.MayCall caller
  | .testWakeup => thread.testing = true
  | .wakeupWrite => 0 < thread.awaiting
  | .runInLoop caller _ => thread.MayCall caller
  | .quit caller => thread.MayCall caller
  | .quitWakeup => 0 < thread.quitting

instance (thread : LoopThread Functor) (caller : LoopCaller) :
    Decidable (thread.MayCall caller) :=
  match caller with
  | .loopThread => inferInstanceAs (Decidable (_ ∧ _))
  | .otherThread => isTrue trivial

instance (thread : LoopThread Functor) (action : LoopAction Functor) :
    Decidable (thread.Enabled action) :=
  match action with
  | .enter => inferInstanceAs (Decidable (_ ∧ _))
  | .advance => inferInstanceAs (Decidable (_ ∧ _ ∧ _ ∧ (_ → _)))
  | .poll _ => inferInstanceAs (Decidable (_ ∧ (_ → _)))
  | .handleRead => inferInstanceAs (Decidable (_ ∧ _ ∧ _))
  | .queueInLoop caller _ | .runInLoop caller _ | .quit caller =>
      inferInstanceAs (Decidable (thread.MayCall caller))
  | .testWakeup => inferInstanceAs (Decidable (_ = _))
  | .wakeupWrite | .quitWakeup => inferInstanceAs (Decidable (_ < _))

end LoopThread

/-- An event loop and its callers as a machine; no step fails. -/
def loopMachine (Functor : Type u) :
    Machine (LoopThread Functor) (LoopAction Functor) Empty where
  enabled := LoopThread.Enabled
  step thread action := .ok (thread.step action)

instance (thread : LoopThread Functor) (action : LoopAction Functor) :
    Decidable ((loopMachine Functor).enabled thread action) :=
  inferInstanceAs (Decidable (thread.Enabled action))

end Muduo
