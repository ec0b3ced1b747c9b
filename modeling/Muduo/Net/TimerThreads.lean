import Muduo.Library.BatchQueue
import Muduo.Net.EventLoop
import Muduo.Net.TimerCancel

/-!
# Timers of several threads

`TimerQueue::addTimer` and `cancel` as any thread calls them.  They go through
`runInLoop`: in the loop thread they take effect at once, from other threads when
the functor queue of the loop comes to them.
-/

namespace Muduo

open Library

/-- The functors that the timer queue has run in its loop. -/
inductive TimerFunctor where
  | addTimerInLoop (address : Nat)
  | cancelInLoop (timerId : TimerId)
  deriving DecidableEq, Repr

namespace TimerFunctor

def action : TimerFunctor → TimerAction
  | addTimerInLoop address => .addTimerInLoop address
  | cancelInLoop timerId => .cancelInLoop timerId

def adds? : TimerFunctor → Option Nat
  | addTimerInLoop address => some address
  | cancelInLoop _ => none

end TimerFunctor

/-- `unadded` are the timers of calls of `addTimer` in the loop thread before
`runInLoop`, `unqueued` those of other threads, and `leaving` those whose call has
still to return.  `returned` are the ids that callers got. -/
structure TimerThreads where
  loop : TimerLoop
  functors : BatchQueue TimerFunctor
  unadded : List TimerId
  unqueued : List TimerId
  leaving : List TimerId
  returned : List TimerId

inductive TimersAction where
  | newTimer (caller : LoopCaller) (address : Nat) (when : Timestamp)
      (interval : Interval)
  | runAdd (timerId : TimerId)
  | queueAdd (timerId : TimerId)
  | returnId (timerId : TimerId)
  | cancel (caller : LoopCaller) (timerId : TimerId)
  | swap
  | runFunctor
  | handleRead (action : TimerAction)

/-- A step of `handleRead`, or time going on. -/
def TimerAction.ofHandleRead : TimerAction → Bool
  | .startCalling | .runCallback | .stopCalling | .resetOne | .finishReset
  | .setClock _ => true
  | .create _ _ _ | .addTimerInLoop _ | .cancelInLoop _ => false

namespace TimerThreads

def new (clock : Timestamp) : TimerThreads :=
  { loop := .new clock, functors := ⟨[], []⟩, unadded := [], unqueued := []
    leaving := [], returned := [] }

/-- The addresses of the timers that queued functors will add. -/
def toAdd (threads : TimerThreads) : List Nat :=
  threads.functors.waiting.filterMap TimerFunctor.adds?

/-- The call that created an id has returned. -/
def Returned (threads : TimerThreads) (timerId : TimerId) : Prop :=
  timerId ∈ threads.returned ∧ timerId ∉ threads.unadded ∧
    timerId ∉ threads.unqueued ∧ timerId ∉ threads.leaving

/-- Functors run between two invocations of `handleRead`; a cancel is called when
the call that created its id has returned. -/
def Enabled (mayMove : Timestamp → Timestamp → Prop)
    (threads : TimerThreads) : TimersAction → Prop
  | .newTimer caller address when interval =>
      threads.loop.Enabled mayMove (.create address when interval) ∧
      (caller = .loopThread → threads.loop.phase.CallsQueue)
  | .runAdd timerId => timerId ∈ threads.unadded ∧
      threads.loop.phase.CallsQueue
  | .queueAdd timerId => timerId ∈ threads.unqueued
  | .returnId timerId => timerId ∈ threads.leaving
  | .cancel caller timerId => threads.Returned timerId ∧
      (caller = .loopThread → threads.loop.phase.CallsQueue)
  | .swap => threads.functors.batch = [] ∧ threads.loop.phase = .idle
  | .runFunctor => threads.functors.batch ≠ [] ∧ threads.loop.phase = .idle
  | .handleRead action => action.ofHandleRead = true ∧
      threads.loop.Enabled mayMove action ∧
      (action = .startCalling → threads.functors.batch = [])

/-- The call of `sequence` comes last, when the timer may be gone. -/
def returnId (threads : TimerThreads) (timerId : TimerId) :
    Checked TimerThreads := do
  let timer ← threads.loop.queue.load timerId.timer
  return { threads with
    leaving := threads.leaving.erase timerId
    returned := ⟨timerId.timer, timer.sequence⟩ :: threads.returned }

def step (threads : TimerThreads) : TimersAction → Checked TimerThreads
  | .newTimer caller address when interval => do
      let timerId : TimerId := ⟨address, threads.loop.numCreated + 1⟩
      let loop ← threads.loop.step (.create address when interval)
      match caller with
      | .loopThread =>
          return { threads with loop, unadded := timerId :: threads.unadded }
      | .otherThread =>
          return { threads with loop, unqueued := timerId :: threads.unqueued }
  | .runAdd timerId => do
      let loop ← threads.loop.step (.addTimerInLoop timerId.timer)
      return { threads with
        loop
        unadded := threads.unadded.erase timerId
        leaving := timerId :: threads.leaving }
  | .queueAdd timerId => .ok { threads with
      functors := threads.functors.push (.addTimerInLoop timerId.timer)
      unqueued := threads.unqueued.erase timerId
      leaving := timerId :: threads.leaving }
  | .returnId timerId => threads.returnId timerId
  | .cancel .loopThread timerId => do
      let loop ← threads.loop.step (.cancelInLoop timerId)
      return { threads with loop }
  | .cancel .otherThread timerId => .ok { threads with
      functors := threads.functors.push (.cancelInLoop timerId) }
  | .swap => .ok { threads with functors := threads.functors.swap }
  | .runFunctor =>
      match threads.functors.batch with
      | [] => .ok threads
      | functor :: batch => do
          let loop ← threads.loop.step functor.action
          return { threads with
            loop, functors := { threads.functors with batch } }
  | .handleRead action => do
      let loop ← threads.loop.step action
      return { threads with loop }

/-- The step executes `cancelInLoop` for an id. -/
def Cancels (threads : TimerThreads) (timerId : TimerId) :
    TimersAction → Prop
  | .cancel .loopThread other => other = timerId
  | .runFunctor => threads.functors.batch.head? = some (.cancelInLoop timerId)
  | _ => False

/-- The functor that adds the timer of an id is queued. -/
def AddQueued (threads : TimerThreads) (timerId : TimerId) : Prop :=
  ∃ located, threads.loop.queue.Live located ∧ located.id = timerId ∧
    .addTimerInLoop located.address ∈ threads.functors.waiting

end TimerThreads

/-- A timer queue and the threads that call it. -/
def timersMachine (mayMove : Timestamp → Timestamp → Prop) :
    Machine TimerThreads TimersAction Fault where
  enabled := TimerThreads.Enabled mayMove
  step := TimerThreads.step

namespace TimerLoop

variable {loop next : TimerLoop} {action : TimerAction} {located : Located}

theorem Inv.batch_not_pending (inv : loop.Inv)
    (member : located.entry ∈ loop.phase.batch) :
    located.address ∉ loop.pending := by
  intro pending
  obtain ⟨_, _, apart⟩ := List.nodup_append.mp inv.owns.nodup
  exact apart _ pending located.address
    (List.mem_map_of_mem (List.mem_append_right _ member)) rfl

theorem TimerStep.pending_kept (step : TimerStep loop action next)
    (inv : loop.Inv) (live : loop.queue.Live located)
    (pending : located.address ∈ loop.pending) :
    next.queue.Live located := by
  cases step with
  | create free bound =>
      exact (TimerQueue.live_store_free free).mpr (.inr live)
  | add calls alive apart member =>
      simp only
      rw [TimerQueue.added_eq]
      exact live
  | @cancelHeld held calls holds =>
      refine TimerQueue.live_drop.mpr ⟨?_, live⟩
      intro here
      exact inv.apart_pending pending _ holds.2 here.symm
  | @start queue idle starts =>
      have heap : queue.heap = loop.queue.heap := by
        rw [starts.same, TimerQueue.readTimerfd_eq]
      exact (congrFun heap _).trans live
  | @renew now remaining renewed phase alive apart repeats kept =>
      refine TimerQueue.live_store.mpr (.inr ⟨?_, live⟩)
      intro here
      have inside : renewed.entry ∈ loop.phase.batch := by
        simp [phase, Phase.batch]
      exact inv.batch_not_pending inside (here ▸ pending)
  | @discard now remaining gone phase alive apart _ =>
      refine TimerQueue.live_freed.mpr ⟨?_, live⟩
      intro here
      have inside : gone.entry ∈ loop.phase.batch := by
        simp [phase, Phase.batch]
      exact inv.batch_not_pending inside (here ▸ pending)
  | finish phase =>
      rw [TimerQueue.rearmed_eq]
      exact live
  | cancelCalling | cancelIdle | run | stop | setClock => exact live

/-- A timer that waits to be added after a step and is not new waited before. -/
theorem TimerStep.pending_back (step : TimerStep loop action next)
    (inv : loop.Inv) (alive : next.queue.Live located)
    (pending : located.address ∈ next.pending)
    (old : located.timer.sequence ≤ loop.numCreated) :
    loop.queue.Live located ∧ located.address ∈ loop.pending := by
  cases step with
  | @create address when interval free bound =>
      rcases (TimerQueue.live_store_free free).mp alive with rfl | before
      · exact (Nat.not_succ_le_self _ old).elim
      · refine ⟨before, ?_⟩
        rcases List.mem_cons.mp pending with here | older
        · rw [TimerQueue.Live, here, free] at before
          cases before
        · exact older
  | add calls live apart member =>
      simp only at alive
      rw [TimerQueue.added_eq] at alive
      exact ⟨alive, List.mem_of_mem_erase pending⟩
  | cancelHeld calls holds =>
      exact ⟨(TimerQueue.live_drop.mp alive).2, pending⟩
  | @start queue idle starts =>
      have heap : queue.heap = loop.queue.heap := by
        rw [starts.same, TimerQueue.readTimerfd_eq]
      exact ⟨(congrFun heap _).symm.trans alive, pending⟩
  | @renew now remaining renewed phase live apart repeats kept =>
      rcases TimerQueue.live_store.mp alive with rfl | ⟨_, before⟩
      · have inside : renewed.entry ∈ loop.phase.batch := by
          simp [phase, Phase.batch]
        exact (inv.batch_not_pending inside pending).elim
      · exact ⟨before, pending⟩
  | discard phase live apart gone =>
      exact ⟨(TimerQueue.live_freed.mp alive).2, pending⟩
  | finish phase =>
      simp only at alive
      rw [TimerQueue.rearmed_eq] at alive
      exact ⟨alive, pending⟩
  | cancelCalling | cancelIdle | run | stop | setClock =>
      exact ⟨alive, pending⟩

theorem TimerStep.created_le (step : TimerStep loop action next) :
    loop.numCreated ≤ next.numCreated := by
  cases step with
  | create free bound => exact Nat.le_succ _
  | add | cancelHeld | cancelCalling | cancelIdle | start | run | stop | renew
  | discard | finish | setClock => exact Nat.le_refl _

theorem TimerStep.pending_eq (step : TimerStep loop action next)
    (other : action.ofHandleRead = true ∨ ∃ timerId, action = .cancelInLoop timerId) :
    next.pending = loop.pending := by
  cases step with
  | create free bound => simp [TimerAction.ofHandleRead] at other
  | add => simp [TimerAction.ofHandleRead] at other
  | cancelHeld | cancelCalling | cancelIdle | start | run | stop | renew
  | discard | finish | setClock => rfl

theorem TimerStep.idle_of_start (step : TimerStep loop .startCalling next) :
    loop.phase = .idle := by
  cases step with
  | start idle starts => exact idle

theorem TimerStep.pending_erase {address : Nat}
    (step : TimerStep loop (.addTimerInLoop address) next) :
    next.pending = loop.pending.erase address := by
  cases step with
  | add calls live apart member => rfl

end TimerLoop

/-- What a step of the threads does, and to their loop. -/
inductive ThreadsStep (threads : TimerThreads) :
    TimersAction → TimerThreads → Prop where
  | newOwn {address : Nat} {when : Timestamp} {interval : Interval}
      {loop : TimerLoop} :
      threads.loop.TimerStep (.create address when interval) loop →
      ThreadsStep threads (.newTimer .loopThread address when interval)
        { threads with
          loop
          unadded := ⟨address, threads.loop.numCreated + 1⟩ ::
            threads.unadded }
  | newOther {address : Nat} {when : Timestamp} {interval : Interval}
      {loop : TimerLoop} :
      threads.loop.TimerStep (.create address when interval) loop →
      ThreadsStep threads (.newTimer .otherThread address when interval)
        { threads with
          loop
          unqueued := ⟨address, threads.loop.numCreated + 1⟩ ::
            threads.unqueued }
  | runAdd {timerId : TimerId} {loop : TimerLoop} :
      timerId ∈ threads.unadded →
      threads.loop.TimerStep (.addTimerInLoop timerId.timer) loop →
      ThreadsStep threads (.runAdd timerId)
        { threads with
          loop
          unadded := threads.unadded.erase timerId
          leaving := timerId :: threads.leaving }
  | queueAdd {timerId : TimerId} :
      timerId ∈ threads.unqueued →
      ThreadsStep threads (.queueAdd timerId)
        { threads with
          functors := threads.functors.push (.addTimerInLoop timerId.timer)
          unqueued := threads.unqueued.erase timerId
          leaving := timerId :: threads.leaving }
  | returnId {timerId : TimerId} {timer : Timer} :
      threads.loop.queue.Live ⟨timerId.timer, timer⟩ →
      ThreadsStep threads (.returnId timerId)
        { threads with
          leaving := threads.leaving.erase timerId
          returned := ⟨timerId.timer, timer.sequence⟩ :: threads.returned }
  | cancelOwn {timerId : TimerId} {loop : TimerLoop} :
      threads.Returned timerId →
      threads.loop.TimerStep (.cancelInLoop timerId) loop →
      ThreadsStep threads (.cancel .loopThread timerId) { threads with loop }
  | cancelOther {timerId : TimerId} :
      threads.Returned timerId →
      ThreadsStep threads (.cancel .otherThread timerId)
        { threads with
          functors := threads.functors.push (.cancelInLoop timerId) }
  | swap :
      threads.functors.batch = [] →
      ThreadsStep threads .swap
        { threads with functors := threads.functors.swap }
  | runFunctor {functor : TimerFunctor} {batch : List TimerFunctor}
      {loop : TimerLoop} :
      threads.functors.batch = functor :: batch →
      threads.loop.TimerStep functor.action loop →
      ThreadsStep threads .runFunctor
        { threads with loop, functors := { threads.functors with batch } }
  | handleRead {action : TimerAction} {loop : TimerLoop} :
      action.ofHandleRead = true →
      threads.loop.TimerStep action loop →
      ThreadsStep threads (.handleRead action) { threads with loop }

theorem TimerQueue.live_of_load {queue : TimerQueue} {address : Nat}
    {timer : Timer} (loaded : queue.load address = .ok timer) :
    queue.Live ⟨address, timer⟩ := by
  unfold TimerQueue.load at loaded
  split at loaded
  · next found =>
      cases loaded
      exact found
  · cases loaded

namespace TimerThreads

/-- A functor that cancels a timer has none behind it that adds the timer. -/
def Precedes (loop : TimerLoop) (earlier later : TimerFunctor) : Prop :=
  ∀ located, loop.queue.Live located →
    earlier = .cancelInLoop located.id →
    later ≠ .addTimerInLoop located.address

/-- The timers that wait to be added are those of unfinished calls and of queued
functors, and cancels are queued behind what they cancel. -/
structure Ordered (threads : TimerThreads) : Prop where
  inv : threads.loop.Inv
  inserted : threads.loop.Inserted
  callers_live : ∀ timerId ∈ threads.unadded ++ threads.unqueued,
    ∃ located, threads.loop.queue.Live located ∧ located.id = timerId
  pending_perm : ((threads.unadded ++ threads.unqueued).map TimerId.timer ++
    threads.toAdd).Perm threads.loop.pending
  returned_le : ∀ timerId ∈ threads.returned,
    timerId.sequence ≤ threads.loop.numCreated
  cancels_returned : ∀ timerId,
    .cancelInLoop timerId ∈ threads.functors.waiting →
    timerId.sequence ≤ threads.loop.numCreated ∧
      timerId ∉ threads.unadded ++ threads.unqueued
  cancels_behind : threads.functors.waiting.Pairwise (Precedes threads.loop)

theorem new_ordered (clock : Timestamp) : (new clock).Ordered where
  inv := TimerLoop.new_inv clock
  inserted := TimerLoop.inserted_new clock
  callers_live := by
    intro timerId member
    cases member
  pending_perm := .nil
  returned_le := by
    intro timerId member
    cases member
  cancels_returned := by
    intro timerId member
    cases member
  cancels_behind := .nil

variable {threads next : TimerThreads} {action : TimersAction}

theorem mem_toAdd {address : Nat} :
    address ∈ threads.toAdd ↔
      .addTimerInLoop address ∈ threads.functors.waiting := by
  simp only [toAdd, List.mem_filterMap]
  constructor
  · rintro ⟨functor, member, adds⟩
    cases functor with
    | addTimerInLoop other =>
        cases adds
        exact member
    | cancelInLoop timerId => cases adds
  · intro member
    exact ⟨_, member, rfl⟩

/-- A timer that waits to be added, by a call that has returned, has its functor
in the queue. -/
theorem Ordered.queued (ordered : threads.Ordered) {located : Located}
    (live : threads.loop.queue.Live located)
    (pending : located.address ∈ threads.loop.pending)
    (returned : located.id ∉ threads.unadded ++ threads.unqueued) :
    .addTimerInLoop located.address ∈ threads.functors.waiting := by
  have place := ordered.pending_perm.mem_iff.mpr pending
  rcases List.mem_append.mp place with calling | queued
  · obtain ⟨timerId, member, same⟩ := List.mem_map.mp calling
    obtain ⟨other, alive, rfl⟩ := ordered.callers_live timerId member
    rw [alive.unique live same] at member
    exact (returned member).elim
  · exact mem_toAdd.mp queued

theorem Ordered.stepped (ordered : threads.Ordered)
    {mayMove : Timestamp → Timestamp → Prop}
    (enabled : (timersMachine mayMove).enabled threads action)
    (stepped : (timersMachine mayMove).step threads action = .ok next) :
    ThreadsStep threads action next := by
  have enabled : threads.Enabled mayMove action := enabled
  have stepped : threads.step action = .ok next := stepped
  have loopStep : ∀ {timerAction loop},
      threads.loop.Enabled mayMove timerAction →
      threads.loop.step timerAction = .ok loop →
      threads.loop.TimerStep timerAction loop := by
    intro timerAction loop allowed result
    have allowed : (timerMachine mayMove).enabled threads.loop timerAction :=
      allowed
    exact ordered.inv.stepped allowed result
  cases action with
  | newTimer caller address when interval =>
      obtain ⟨loop, result, rest⟩ := bind_eq_ok stepped
      have step := loopStep enabled.1 result
      cases caller with
      | loopThread =>
          cases rest
          exact .newOwn step
      | otherThread =>
          cases rest
          exact .newOther step
  | runAdd timerId =>
      obtain ⟨loop, result, rest⟩ := bind_eq_ok stepped
      have pending : timerId.timer ∈ threads.loop.pending := by
        apply ordered.pending_perm.mem_iff.mp
        exact List.mem_append_left _ (List.mem_map_of_mem
          (List.mem_append_left _ enabled.1))
      have allowed : threads.loop.Enabled mayMove
          (.addTimerInLoop timerId.timer) := ⟨pending, enabled.2⟩
      cases rest
      exact .runAdd enabled.1 (loopStep allowed result)
  | queueAdd timerId =>
      cases stepped
      exact .queueAdd enabled
  | returnId timerId =>
      obtain ⟨timer, result, rest⟩ := bind_eq_ok stepped
      cases rest
      exact .returnId (TimerQueue.live_of_load result)
  | cancel caller timerId =>
      cases caller with
      | loopThread =>
          obtain ⟨loop, result, rest⟩ := bind_eq_ok stepped
          have allowed : threads.loop.Enabled mayMove
              (.cancelInLoop timerId) := enabled.2 rfl
          cases rest
          exact .cancelOwn enabled.1 (loopStep allowed result)
      | otherThread =>
          cases stepped
          exact .cancelOther enabled.1
  | swap =>
      cases stepped
      exact .swap enabled.1
  | runFunctor =>
      obtain ⟨some, idle⟩ := enabled
      have calls : threads.loop.phase.CallsQueue := by
        rw [idle]
        trivial
      cases batch : threads.functors.batch with
      | nil => exact (some batch).elim
      | cons functor rest =>
          simp only [TimerThreads.step, batch] at stepped
          obtain ⟨loop, result, last⟩ := bind_eq_ok stepped
          have allowed : threads.loop.Enabled mayMove functor.action := by
            cases functor with
            | addTimerInLoop address =>
                refine ⟨ordered.pending_perm.mem_iff.mp ?_, calls⟩
                apply List.mem_append_right
                apply mem_toAdd.mpr
                simp [BatchQueue.waiting, batch]
            | cancelInLoop timerId => exact calls
          cases last
          exact .runFunctor batch (loopStep allowed result)
  | handleRead timerAction =>
      obtain ⟨loop, result, rest⟩ := bind_eq_ok stepped
      cases rest
      exact .handleRead enabled.1 (loopStep enabled.2.1 result)

/-- The order of the queued functors is not disturbed by what happens to the
loop. -/
theorem Ordered.behind (ordered : threads.Ordered) {loop : TimerLoop}
    {timerAction : TimerAction}
    (step : threads.loop.TimerStep timerAction loop)
    {waiting : List TimerFunctor}
    (fewer : waiting.Sublist threads.functors.waiting)
    (pending : ∀ address, .addTimerInLoop address ∈ waiting →
      address ∈ loop.pending) :
    waiting.Pairwise (Precedes loop) := by
  have before := ordered.cancels_behind.sublist fewer
  refine before.imp_of_mem ?_
  intro earlier later inside behind precedes located alive cancels adds
  have queued : .cancelInLoop located.id ∈ threads.functors.waiting := by
    rw [← cancels]
    exact fewer.subset inside
  have old := (ordered.cancels_returned _ queued).1
  obtain ⟨live, _⟩ := step.pending_back ordered.inv alive
    (pending _ (adds ▸ behind)) old
  exact precedes located live cancels adds

theorem Ordered.of_timerStep (ordered : threads.Ordered)
    {timerAction : TimerAction}
    (step : threads.loop.TimerStep timerAction next.loop)
    (callers : ∀ timerId ∈ next.unadded ++ next.unqueued,
      timerId ∈ threads.unadded ++ threads.unqueued ∨
        (threads.loop.numCreated < timerId.sequence ∧
          ∃ located, next.loop.queue.Live located ∧ located.id = timerId))
    (perm : ((next.unadded ++ next.unqueued).map TimerId.timer ++
      next.toAdd).Perm next.loop.pending)
    (returned : next.returned = threads.returned)
    (fewer : next.functors.waiting.Sublist threads.functors.waiting) :
    next.Ordered where
  inv := step.inv ordered.inv
  inserted := step.inserted ordered.inv ordered.inserted
  callers_live := by
    intro timerId member
    rcases callers timerId member with old | ⟨_, fresh⟩
    · obtain ⟨located, live, rfl⟩ := ordered.callers_live timerId old
      have pending : located.address ∈ threads.loop.pending := by
        apply ordered.pending_perm.mem_iff.mp
        exact List.mem_append_left _ (List.mem_map_of_mem old)
      exact ⟨located, step.pending_kept ordered.inv live pending, rfl⟩
    · exact fresh
  pending_perm := perm
  returned_le := by
    rw [returned]
    intro timerId member
    exact (ordered.returned_le timerId member).trans step.created_le
  cancels_returned := by
    intro timerId member
    obtain ⟨old, apart⟩ := ordered.cancels_returned timerId (fewer.subset member)
    refine ⟨old.trans step.created_le, ?_⟩
    intro calling
    rcases callers timerId calling with before | ⟨fresh, _⟩
    · exact apart before
    · exact Nat.not_lt_of_le old fresh
  cancels_behind := by
    apply ordered.behind step fewer
    intro address member
    exact perm.mem_iff.mp (List.mem_append_right _ (mem_toAdd.mpr member))

theorem fresh_caller {address : Nat} {when : Timestamp} {interval : Interval}
    {loop created : TimerLoop}
    (step : loop.TimerStep (.create address when interval) created) :
    loop.numCreated < loop.numCreated + 1 ∧
      created.pending = address :: loop.pending ∧
      ∃ located, created.queue.Live located ∧
        located.id = ⟨address, loop.numCreated + 1⟩ := by
  cases step with
  | create free bound =>
      refine ⟨Nat.lt_succ_self _, rfl,
        ⟨address, .new when interval (loop.numCreated + 1)⟩, ?_, rfl⟩
      exact (TimerQueue.live_store_free free).mpr (.inl rfl)

theorem Ordered.newCaller (ordered : threads.Ordered) {address : Nat}
    {when : Timestamp} {interval : Interval} {loop : TimerLoop}
    (step : threads.loop.TimerStep (.create address when interval) loop)
    {unadded unqueued : List TimerId}
    (callers : (unadded ++ unqueued).Perm
      (⟨address, threads.loop.numCreated + 1⟩ ::
        (threads.unadded ++ threads.unqueued))) :
    Ordered { threads with loop, unadded, unqueued } := by
  obtain ⟨fresh, pending, live⟩ := fresh_caller step
  refine ordered.of_timerStep step ?_ ?_ rfl (List.Sublist.refl _)
  · intro timerId member
    rcases List.mem_cons.mp (callers.mem_iff.mp member) with rfl | old
    · exact .inr ⟨fresh, live⟩
    · exact .inl old
  · rw [pending]
    exact ((callers.map TimerId.timer).append_right _).trans
      (ordered.pending_perm.cons address)

theorem Ordered.newOwn (ordered : threads.Ordered) {address : Nat}
    {when : Timestamp} {interval : Interval} {loop : TimerLoop}
    (step : threads.loop.TimerStep (.create address when interval) loop) :
    Ordered { threads with
      loop
      unadded := ⟨address, threads.loop.numCreated + 1⟩ ::
        threads.unadded } :=
  ordered.newCaller step (List.Perm.refl _)

theorem Ordered.newOther (ordered : threads.Ordered) {address : Nat}
    {when : Timestamp} {interval : Interval} {loop : TimerLoop}
    (step : threads.loop.TimerStep (.create address when interval) loop) :
    Ordered { threads with
      loop
      unqueued := ⟨address, threads.loop.numCreated + 1⟩ ::
        threads.unqueued } :=
  ordered.newCaller step List.perm_middle

theorem Ordered.runAdd (ordered : threads.Ordered) {timerId : TimerId}
    {loop : TimerLoop} (member : timerId ∈ threads.unadded)
    (step : threads.loop.TimerStep (.addTimerInLoop timerId.timer) loop) :
    Ordered { threads with
      loop
      unadded := threads.unadded.erase timerId
      leaving := timerId :: threads.leaving } := by
  have split : (threads.unadded ++ threads.unqueued).Perm
      (timerId :: (threads.unadded.erase timerId ++ threads.unqueued)) :=
    (List.perm_cons_erase member).append_right _
  refine ordered.of_timerStep step ?_ ?_ rfl (List.Sublist.refl _)
  · intro other inside
    exact .inl (split.mem_iff.mpr (List.mem_cons_of_mem _ inside))
  · rw [step.pending_erase]
    have whole := ((split.map TimerId.timer).append_right
      threads.toAdd).symm.trans ordered.pending_perm
    have rest := whole.erase timerId.timer
    rwa [List.map_cons, List.cons_append, List.erase_cons_head] at rest

/-- No cancel that is queued is for the timer of a call that has not returned. -/
theorem Ordered.precedes_add (ordered : threads.Ordered) {timerId : TimerId}
    (calling : timerId ∈ threads.unadded ++ threads.unqueued)
    {earlier : TimerFunctor} (queued : earlier ∈ threads.functors.waiting) :
    Precedes threads.loop earlier (.addTimerInLoop timerId.timer) := by
  intro located live cancels adds
  obtain ⟨other, alive, same⟩ := ordered.callers_live timerId calling
  have place : other.address = located.address :=
    (congrArg TimerId.timer same).trans
      (TimerFunctor.addTimerInLoop.inj adds)
  rw [alive.unique live place] at same
  rw [cancels, same] at queued
  exact (ordered.cancels_returned timerId queued).2 calling

theorem Ordered.queueAdd (ordered : threads.Ordered) {timerId : TimerId}
    (member : timerId ∈ threads.unqueued) :
    Ordered { threads with
      functors := threads.functors.push (.addTimerInLoop timerId.timer)
      unqueued := threads.unqueued.erase timerId
      leaving := timerId :: threads.leaving } := by
  have split : (threads.unadded ++ threads.unqueued).Perm
      (timerId :: (threads.unadded ++ threads.unqueued.erase timerId)) :=
    ((List.perm_cons_erase member).append_left _).trans List.perm_middle
  have waiting := threads.functors.waiting_push
    (.addTimerInLoop timerId.timer)
  constructor
  · exact ordered.inv
  · exact ordered.inserted
  · intro other inside
    exact ordered.callers_live other
      (split.mem_iff.mpr (List.mem_cons_of_mem _ inside))
  · rw [toAdd, waiting, List.filterMap_append]
    have last : ((threads.unadded ++ threads.unqueued.erase timerId).map
        TimerId.timer ++ (threads.toAdd ++ [timerId.timer])).Perm
        (timerId.timer :: ((threads.unadded ++
          threads.unqueued.erase timerId).map TimerId.timer ++
            threads.toAdd)) := by
      rw [← List.append_assoc]
      exact List.perm_append_singleton _ _
    exact last.trans (((split.map TimerId.timer).append_right
      threads.toAdd).symm.trans ordered.pending_perm)
  · exact ordered.returned_le
  · intro other inside
    rw [waiting] at inside
    rcases List.mem_append.mp inside with before | last
    · obtain ⟨old, apart⟩ := ordered.cancels_returned other before
      refine ⟨old, ?_⟩
      intro calling
      exact apart (split.mem_iff.mpr (List.mem_cons_of_mem _ calling))
    · cases List.mem_singleton.mp last
  · rw [waiting, List.pairwise_append]
    refine ⟨ordered.cancels_behind, List.pairwise_singleton _ _, ?_⟩
    intro earlier inside later last
    rw [List.mem_singleton.mp last]
    exact ordered.precedes_add (List.mem_append_right _ member) inside

theorem Ordered.returnId (ordered : threads.Ordered) {timerId : TimerId}
    {timer : Timer}
    (live : threads.loop.queue.Live ⟨timerId.timer, timer⟩) :
    Ordered { threads with
      leaving := threads.leaving.erase timerId
      returned := ⟨timerId.timer, timer.sequence⟩ :: threads.returned } := by
  refine ⟨ordered.inv, ordered.inserted, ordered.callers_live,
    ordered.pending_perm, ?_, ordered.cancels_returned,
    ordered.cancels_behind⟩
  intro other member
  rcases List.mem_cons.mp member with rfl | old
  · exact (ordered.inv.numbered.live_le _ live).2
  · exact ordered.returned_le other old

theorem Ordered.cancelOther (ordered : threads.Ordered) {timerId : TimerId}
    (returned : threads.Returned timerId) :
    Ordered { threads with
      functors := threads.functors.push (.cancelInLoop timerId) } := by
  obtain ⟨known, notAdded, notQueued, _⟩ := returned
  have waiting := threads.functors.waiting_push (.cancelInLoop timerId)
  refine ⟨ordered.inv, ordered.inserted, ordered.callers_live, ?_,
    ordered.returned_le, ?_, ?_⟩
  · rw [toAdd, waiting, List.filterMap_append]
    show (_ ++ (threads.toAdd ++ [])).Perm _
    rw [List.append_nil]
    exact ordered.pending_perm
  · intro other inside
    rw [waiting] at inside
    rcases List.mem_append.mp inside with before | last
    · exact ordered.cancels_returned other before
    · cases List.mem_singleton.mp last
      exact ⟨ordered.returned_le timerId known,
        List.not_mem_append notAdded notQueued⟩
  · rw [waiting, List.pairwise_append]
    refine ⟨ordered.cancels_behind, List.pairwise_singleton _ _, ?_⟩
    intro earlier _ later last located _ _ adds
    rw [List.mem_singleton.mp last] at adds
    cases adds

theorem Ordered.swap (ordered : threads.Ordered)
    (handled : threads.functors.batch = []) :
    Ordered { threads with functors := threads.functors.swap } := by
  have waiting := BatchQueue.waiting_swap handled
  refine ⟨ordered.inv, ordered.inserted, ordered.callers_live, ?_,
    ordered.returned_le, ?_, ?_⟩
  · rw [toAdd, waiting]
    exact ordered.pending_perm
  · rw [waiting]
    exact ordered.cancels_returned
  · rw [waiting]
    exact ordered.cancels_behind

theorem Ordered.runFunctor (ordered : threads.Ordered)
    {functor : TimerFunctor} {batch : List TimerFunctor} {loop : TimerLoop}
    (front : threads.functors.batch = functor :: batch)
    (step : threads.loop.TimerStep functor.action loop) :
    Ordered { threads with
      loop, functors := { threads.functors with batch } } := by
  have perm := ordered.pending_perm
  have waiting : threads.functors.waiting =
      functor :: (batch ++ threads.functors.pending) := by
    simp [BatchQueue.waiting, front]
  have fewer : (batch ++ threads.functors.pending).Sublist
      threads.functors.waiting := by
    rw [waiting]
    exact List.sublist_cons_self _ _
  refine ordered.of_timerStep step (fun _ => .inl) ?_ rfl fewer
  cases functor with
  | addTimerInLoop address =>
      rw [step.pending_erase]
      have first : threads.toAdd = address ::
          (batch ++ threads.functors.pending).filterMap
            TimerFunctor.adds? := by
        rw [toAdd, waiting]
        rfl
      rw [first] at perm
      have rest := (List.perm_middle.symm.trans perm).erase address
      rwa [List.erase_cons_head] at rest
  | cancelInLoop timerId =>
      rw [step.pending_eq (.inr ⟨_, rfl⟩)]
      have first : threads.toAdd =
          (batch ++ threads.functors.pending).filterMap
            TimerFunctor.adds? := by
        rw [toAdd, waiting]
        rfl
      rw [first] at perm
      exact perm

theorem Ordered.step (ordered : threads.Ordered)
    (step : ThreadsStep threads action next) : next.Ordered := by
  cases step with
  | newOwn timerStep => exact ordered.newOwn timerStep
  | newOther timerStep => exact ordered.newOther timerStep
  | runAdd member timerStep => exact ordered.runAdd member timerStep
  | queueAdd member => exact ordered.queueAdd member
  | returnId live => exact ordered.returnId live
  | cancelOwn returned timerStep =>
      refine ordered.of_timerStep timerStep (fun _ => .inl) ?_ rfl
        (List.Sublist.refl _)
      rw [timerStep.pending_eq (.inr ⟨_, rfl⟩)]
      exact ordered.pending_perm
  | cancelOther returned => exact ordered.cancelOther returned
  | swap handled => exact ordered.swap handled
  | runFunctor front timerStep => exact ordered.runFunctor front timerStep
  | handleRead ofHandleRead timerStep =>
      refine ordered.of_timerStep timerStep (fun _ => .inl) ?_ rfl
        (List.Sublist.refl _)
      rw [timerStep.pending_eq (.inl ofHandleRead)]
      exact ordered.pending_perm

/-- A cancel that is not executed before the queued functor that adds its timer
ends the timer. -/
theorem Ordered.cancelled (ordered : threads.Ordered) {timerId : TimerId}
    (step : ThreadsStep threads action next)
    (cancels : threads.Cancels timerId action)
    (inOrder : action = .cancel .loopThread timerId →
      ¬ threads.AddQueued timerId) :
    next.loop.Ended timerId := by
  cases step with
  | @cancelOwn other loop returned timerStep =>
      obtain rfl : other = timerId := cancels
      obtain ⟨known, notAdded, notQueued, _⟩ := returned
      have numbered := ordered.returned_le other known
      refine (timerStep.ended_of_cancel ordered.inv numbered ?_).1
      intro located live same pending
      have queued := ordered.queued live pending
        (same ▸ List.not_mem_append notAdded notQueued)
      exact inOrder rfl ⟨located, live, same, queued⟩
  | @runFunctor functor batch loop front timerStep =>
      have cancels : threads.functors.batch.head? =
          some (.cancelInLoop timerId) := cancels
      rw [front] at cancels
      obtain rfl : functor = .cancelInLoop timerId :=
        Option.some.inj cancels
      have waiting : threads.functors.waiting = .cancelInLoop timerId ::
          (batch ++ threads.functors.pending) := by
        simp [BatchQueue.waiting, front]
      obtain ⟨numbered, returned⟩ := ordered.cancels_returned timerId
        (by simp [waiting])
      refine (timerStep.ended_of_cancel ordered.inv numbered ?_).1
      intro located live same pending
      have queued := ordered.queued live pending (same ▸ returned)
      have behind := ordered.cancels_behind
      rw [waiting] at queued behind
      rcases List.mem_cons.mp queued with first | later
      · cases first
      · exact (List.pairwise_cons.mp behind).1 _ later located live
          (by rw [same]) rfl
  | newOwn | newOther | runAdd | queueAdd | returnId | cancelOther | swap
  | handleRead => cases cancels

/-- What a step does to the loop, if anything; only `startCalling` begins a
batch. -/
theorem loop_step (step : ThreadsStep threads action next) :
    (next.loop = threads.loop ∧ action ≠ .handleRead .startCalling) ∨
      ∃ timerAction, threads.loop.TimerStep timerAction next.loop ∧
        (action = .handleRead .startCalling →
          timerAction = .startCalling) := by
  cases step with
  | newOwn timerStep => exact .inr ⟨_, timerStep, nofun⟩
  | newOther timerStep => exact .inr ⟨_, timerStep, nofun⟩
  | runAdd _ timerStep => exact .inr ⟨_, timerStep, nofun⟩
  | cancelOwn _ timerStep => exact .inr ⟨_, timerStep, nofun⟩
  | runFunctor _ timerStep => exact .inr ⟨_, timerStep, nofun⟩
  | handleRead _ timerStep =>
      exact .inr ⟨_, timerStep, TimersAction.handleRead.inj⟩
  | queueAdd | returnId | cancelOther | swap => exact .inl ⟨rfl, nofun⟩

end TimerThreads

section Runs

variable {mayMove : Timestamp → Timestamp → Prop} {clock : Timestamp}
variable {actions : List TimersAction} {action : TimersAction}
variable {threads next : TimerThreads} {timerId : TimerId}

theorem run_ordered
    (runs : (timersMachine mayMove).Run (.new clock) actions threads) :
    threads.Ordered :=
  Machine.Run.state_invariant TimerThreads.Ordered
    (TimerThreads.new_ordered clock)
    (fun _ _ _ ordered enabled stepped =>
      ordered.step (ordered.stepped enabled stepped)) runs

/-- Once ended, a timer stays ended, and it can only wait for its callback in the
batch that was running. -/
theorem ended_run (ordered : next.Ordered)
    (ended : next.loop.Ended timerId) {more : List TimersAction}
    {later : TimerThreads}
    (runs : (timersMachine mayMove).Run next more later) :
    later.loop.Ended timerId ∧
      (later.loop.Waiting timerId → next.loop.Waiting timerId ∧
        .handleRead .startCalling ∉ more) := by
  have kept : later.Ordered ∧ later.loop.Ended timerId ∧
      (later.loop.Waiting timerId → next.loop.Waiting timerId ∧
        .handleRead .startCalling ∉ more) := by
    apply Machine.Run.invariant (fun more later => later.Ordered ∧
      later.loop.Ended timerId ∧
      (later.loop.Waiting timerId → next.loop.Waiting timerId ∧
        .handleRead .startCalling ∉ more)) ?_ ?_ runs
    · exact ⟨ordered, ended, fun waiting => ⟨waiting, List.not_mem_nil⟩⟩
    · intro more state last after _ holds enabled stepped
      obtain ⟨ordered, ended, waits⟩ := holds
      have step := ordered.stepped enabled stepped
      refine ⟨ordered.step step, ?_⟩
      rcases TimerThreads.loop_step step with
        ⟨same, other⟩ | ⟨timerAction, timerStep, starts⟩
      · rw [same]
        refine ⟨ended, ?_⟩
        intro waiting
        obtain ⟨first, none⟩ := waits waiting
        exact ⟨first, List.not_mem_append none
          (fun last => other (List.mem_singleton.mp last).symm)⟩
      · refine ⟨timerStep.ended ordered.inv ended, ?_⟩
        intro waiting
        have before := timerStep.waiting ordered.inv ended waiting
        obtain ⟨first, none⟩ := waits before
        refine ⟨first, List.not_mem_append none ?_⟩
        intro last
        obtain rfl := starts (List.mem_singleton.mp last).symm
        obtain ⟨_, _, _, later⟩ := before
        rw [timerStep.idle_of_start] at later
        cases later
  exact kept.2

/-- A cancel executed in the loop thread, whatever threads call the queue, is not
lost: the timer is never again in `timers_`, and its callback starts, if at all,
in the batch that was running.  The one thing to avoid is a cancel by the loop
thread itself while the functor that adds the timer is queued. -/
theorem cancel_not_lost
    (runs : (timersMachine mayMove).Run (.new clock) actions threads)
    (enabled : threads.Enabled mayMove action)
    (stepped : threads.step action = .ok next)
    (cancels : threads.Cancels timerId action)
    (inOrder : action = .cancel .loopThread timerId →
      ¬ threads.AddQueued timerId)
    {more : List TimersAction} {later : TimerThreads}
    (runsOn : (timersMachine mayMove).Run next more later) :
    (∀ located, later.loop.queue.Live located → located.id = timerId →
      located.entry ∉ later.loop.queue.timers) ∧
    ∀ last after events, later.Enabled mayMove last →
      later.step last = .ok after →
      after.loop.history = later.loop.history ++ events →
      (∃ located ∈ ranOf events, located.id = timerId) →
      next.loop.Waiting timerId ∧ .handleRead .startCalling ∉ more := by
  have ordered := run_ordered runs
  have allowed : (timersMachine mayMove).enabled threads action := enabled
  have step := ordered.stepped allowed stepped
  have orderedNext := ordered.step step
  have ended := ordered.cancelled step cancels inOrder
  obtain ⟨endedLater, waits⟩ := ended_run orderedNext ended runsOn
  refine ⟨endedLater.not_held, ?_⟩
  intro last after events enabledLast steppedLast history ran
  obtain ⟨located, member, rfl⟩ := ran
  apply waits
  have orderedLater : later.Ordered :=
    Machine.Run.state_invariant TimerThreads.Ordered orderedNext
      (fun _ _ _ ordered enabled stepped =>
        ordered.step (ordered.stepped enabled stepped)) runsOn
  have allowedLast : (timersMachine mayMove).enabled later last := enabledLast
  rcases TimerThreads.loop_step
    (orderedLater.stepped allowedLast steppedLast) with
    ⟨same, _⟩ | ⟨timerAction, timerStep, _⟩
  · rw [same] at history
    obtain rfl := List.self_eq_append_right.mp history
    cases member
  · obtain ⟨others, grown, waiting⟩ := timerStep.history
    obtain rfl := List.append_cancel_left (history.symm.trans grown)
    exact waiting located member

instance (threads : TimerThreads) (timerId : TimerId) :
    Decidable (threads.Returned timerId) :=
  inferInstanceAs (Decidable (_ ∧ _ ∧ _ ∧ _))

instance (mayMove : Timestamp → Timestamp → Prop) [DecidableRel mayMove]
    (threads : TimerThreads) (action : TimersAction) :
    Decidable ((timersMachine mayMove).enabled threads action) :=
  match action with
  | .newTimer caller address when interval =>
      inferInstanceAs (Decidable
        (threads.loop.Enabled mayMove (.create address when interval) ∧
          (caller = .loopThread → threads.loop.phase.CallsQueue)))
  | .runAdd _ => inferInstanceAs (Decidable (_ ∧ threads.loop.phase.CallsQueue))
  | .queueAdd timerId =>
      inferInstanceAs (Decidable (timerId ∈ threads.unqueued))
  | .returnId timerId =>
      inferInstanceAs (Decidable (timerId ∈ threads.leaving))
  | .cancel caller timerId =>
      inferInstanceAs (Decidable (threads.Returned timerId ∧
        (caller = .loopThread → threads.loop.phase.CallsQueue)))
  | .swap => inferInstanceAs (Decidable (_ ∧ threads.loop.phase = .idle))
  | .runFunctor => inferInstanceAs (Decidable (_ ∧ threads.loop.phase = .idle))
  | .handleRead action =>
      inferInstanceAs (Decidable (action.ofHandleRead = true ∧
        threads.loop.Enabled mayMove action ∧ (_ → _)))

/-- Another thread creates a timer, and a third one cancels it before the loop has
added it. -/
theorem cancel_not_lost_queued :
    ∃ (actions : List TimersAction) (threads next : TimerThreads),
      (timersMachine (· ≤ ·)).Run (.new 10) actions threads ∧
      threads.step .runFunctor = .ok next ∧
      threads.Cancels ⟨7, 1⟩ .runFunctor ∧
      ∀ more later, (timersMachine (· ≤ ·)).Run next more later →
        ∀ located, later.loop.queue.Live located → located.id = ⟨7, 1⟩ →
          located.entry ∉ later.loop.queue.timers := by
  let before : List TimersAction :=
    [.newTimer .otherThread 7 20 ⟨false, 0, by decide⟩, .queueAdd ⟨7, 1⟩,
      .returnId ⟨7, 1⟩, .cancel .otherThread ⟨7, 1⟩, .swap, .runFunctor]
  have found : ((timersMachine (· ≤ ·)).execute (.new 10) before).any
      (fun threads => threads.functors.batch.head? =
        some (.cancelInLoop ⟨7, 1⟩)) = true := by
    decide +kernel
  have cancelled : ((timersMachine (· ≤ ·)).execute (.new 10)
      (before ++ [.runFunctor])).any (fun _ => true) = true := by
    decide +kernel
  obtain ⟨threads, runs, accepted⟩ := Machine.run_of_execute found
  obtain ⟨next, runsNext, _⟩ := Machine.run_of_execute cancelled
  obtain ⟨state, earlier, enabled, stepped⟩ := runsNext.unsnoc
  obtain rfl := runs.unique earlier
  have front : threads.functors.batch.head? =
      some (.cancelInLoop ⟨7, 1⟩) := of_decide_eq_true accepted
  have cancels : threads.Cancels ⟨7, 1⟩ .runFunctor := front
  have enabled : threads.Enabled (· ≤ ·) .runFunctor := enabled
  refine ⟨before, threads, next, runs, stepped, cancels, ?_⟩
  intro more later runsOn
  exact (cancel_not_lost runs enabled stepped cancels nofun runsOn).1

/-- The loop thread cancels a timer that another thread has created, before the
queued functor adds it; it is added all the same and runs. -/
theorem cancel_lost :
    ∃ (actions : List TimersAction) (threads : TimerThreads)
      (located : Located),
      (timersMachine (· ≤ ·)).Run (.new 10) actions threads ∧
      threads.loop.history =
        [.cancelled located.id, .added located, .ran located 20] := by
  let located : Located := ⟨7, .new 20 ⟨false, 0, by decide⟩ 1⟩
  have found : ((timersMachine (· ≤ ·)).execute (.new 10)
      [.newTimer .otherThread 7 20 ⟨false, 0, by decide⟩, .queueAdd ⟨7, 1⟩,
        .returnId ⟨7, 1⟩, .cancel .loopThread ⟨7, 1⟩, .swap, .runFunctor,
        .handleRead (.setClock 20), .handleRead .startCalling,
        .handleRead .runCallback]).any
      (fun threads => threads.loop.history =
        [.cancelled located.id, .added located, .ran located 20]) = true := by
    decide +kernel
  obtain ⟨threads, runs, accepted⟩ := Machine.run_of_execute found
  exact ⟨_, threads, located, runs, of_decide_eq_true accepted⟩

end Runs

end Muduo
