import Muduo.Net.TimerThreads

/-!
# The ids that `addTimer` returns

`addTimer` reads the sequence number of its timer when the timer already belongs to
the loop.  The read is right as long as the loop has not deleted the timer, which it
does at the end of `handleRead`; an id that is returned before can be cancelled, and
then nobody reads the timer any more.
-/

namespace Muduo

open Library

/-- The address that a call of `addTimer` got for its timer. -/
def TimersAction.creates : TimersAction → Option Nat
  | .newTimer _ address _ _ => some address
  | .runAdd _ | .queueAdd _ | .returnId _ | .cancel _ _ | .swap | .runFunctor
  | .handleRead _ => none

/-- The timers that the actions create, with the numbers that their constructors
give them. -/
def created (actions : List TimersAction) : List TimerId :=
  ((actions.filterMap TimersAction.creates).zipIdx 1).map
    fun numbered => ⟨numbered.1, numbered.2⟩

namespace TimerThreads

/-- Every call that is about to read its timer reads the number it was given. -/
def ReadsOwn (threads : TimerThreads) : Prop :=
  ∀ timerId ∈ threads.leaving, ∃ next, threads.returnId timerId = .ok next ∧
    next.returned = timerId :: threads.returned

/-- A turn of `reset` deletes no timer that its call of `addTimer` has still to
read. -/
def KeepsUnread (threads : TimerThreads) : TimersAction → Prop
  | .handleRead .resetOne =>
      match threads.loop.phase with
      | .resetting _ (entry :: _) =>
          match threads.loop.queue.heap entry.second with
          | some timer =>
              (timer.repeats = true ∧ ⟨entry.second, timer.sequence⟩ ∉
                threads.loop.queue.cancelingTimers) ∨
              ⟨entry.second, timer.sequence⟩ ∉ threads.leaving
          | none => True
      | _ => True
  | _ => True

/-- The ids of all calls, by where the calls are. -/
def ids (threads : TimerThreads) : List TimerId :=
  threads.unadded ++ threads.unqueued ++ threads.leaving ++ threads.returned

/-- The ids that were returned are, with the calls that are under way, those of the
timers created, each once, and every read is right. -/
structure Served (actions : List TimersAction) (threads : TimerThreads) : Prop where
  reads : threads.ReadsOwn
  calls : threads.ids.Perm (created actions)
  distinct : ((created actions).map TimerId.sequence).Nodup

end TimerThreads

theorem length_created (actions : List TimersAction) :
    (created actions).length =
      (actions.filterMap TimersAction.creates).length := by
  simp [created]

theorem created_concat (actions : List TimersAction) (action : TimersAction) :
    created (actions ++ [action]) = created actions ++
      (action.creates.map fun address =>
        (⟨address, (created actions).length + 1⟩ : TimerId)).toList := by
  rw [length_created]
  cases creates : action.creates with
  | none => simp [created, List.filterMap_append, creates]
  | some address =>
      simp [created, List.filterMap_append, creates, List.zipIdx_append,
        Nat.add_comm]

theorem distinct_created (actions : List TimersAction) :
    ((created actions).map TimerId.sequence).Nodup := by
  have numbers : (created actions).map TimerId.sequence =
      List.range' 1 (actions.filterMap TimersAction.creates).length := by
    rw [created, List.map_map]
    exact List.zipIdx_map_snd 1 _
  rw [numbers]
  exact List.nodup_range'

namespace TimerLoop

variable {loop next : TimerLoop} {action : TimerAction} {located : Located}

/-- A timer keeps its number at its address, unless it is cancelled or deleted at the
end of its batch. -/
theorem TimerStep.id_kept (step : TimerStep loop action next)
    (live : loop.queue.Live located) :
    (∃ other, next.queue.Live other ∧ other.id = located.id) ∨
      action = .cancelInLoop located.id ∨
      (action = .resetOne ∧ ∃ now remaining,
        loop.phase = .resetting now (located.entry :: remaining) ∧
        ¬ (located.timer.repeats = true ∧
          located.id ∉ loop.queue.cancelingTimers)) := by
  cases step with
  | create free bound =>
      exact .inl ⟨located, (TimerQueue.live_store_free free).mpr (.inr live), rfl⟩
  | add calls alive apart member =>
      refine .inl ⟨located, ?_, rfl⟩
      simp only
      rw [TimerQueue.added_eq]
      exact live
  | @cancelHeld held calls holds =>
      by_cases here : located.address = held.address
      · rw [live.unique holds.1 here]
        exact .inr (.inl rfl)
      · exact .inl ⟨located, TimerQueue.live_drop.mpr ⟨here, live⟩, rfl⟩
  | @start queue idle starts =>
      have heap : queue.heap = loop.queue.heap := by
        rw [starts.same, TimerQueue.readTimerfd_eq]
      exact .inl ⟨located, (congrFun heap _).trans live, rfl⟩
  | @renew now remaining renewed phase alive apart repeats kept =>
      left
      by_cases here : located.address = renewed.address
      · rw [live.unique alive here]
        exact ⟨⟨renewed.address, renewed.timer.restart now⟩,
          TimerQueue.live_store.mpr (.inl rfl), rfl⟩
      · exact ⟨located, TimerQueue.live_store.mpr (.inr ⟨here, live⟩), rfl⟩
  | @discard now remaining gone phase alive apart deleted =>
      by_cases here : located.address = gone.address
      · rw [live.unique alive here]
        exact .inr (.inr ⟨rfl, now, remaining, phase, deleted⟩)
      · exact .inl ⟨located, TimerQueue.live_freed.mpr ⟨here, live⟩, rfl⟩
  | finish phase =>
      refine .inl ⟨located, ?_, rfl⟩
      simp only
      rw [TimerQueue.rearmed_eq]
      exact live
  | cancelCalling | cancelIdle | run | stop | setClock =>
      exact .inl ⟨located, live, rfl⟩

theorem TimerStep.numCreated_eq (step : TimerStep loop action next)
    (other : ∀ address when interval, action ≠ .create address when interval) :
    next.numCreated = loop.numCreated := by
  cases step with
  | create free bound => exact (other _ _ _ rfl).elim
  | add | cancelHeld | cancelCalling | cancelIdle | start | run | stop | renew
  | discard | finish | setClock => rfl

theorem TimerStep.resetOne_cases (step : TimerStep loop .resetOne next) :
    ∃ now remaining located,
      loop.phase = .resetting now (located.entry :: remaining) ∧
      loop.queue.Live located ∧
      ((located.timer.repeats = true ∧
          located.id ∉ loop.queue.cancelingTimers) ∨
        next.queue.heap located.address = none) := by
  cases step with
  | @renew now remaining located phase alive apart repeats kept =>
      exact ⟨now, remaining, located, phase, alive, .inl ⟨repeats, kept⟩⟩
  | @discard now remaining located phase alive apart deleted =>
      refine ⟨now, remaining, located, phase, alive, .inr ?_⟩
      exact write_same

end TimerLoop

namespace TimerThreads

variable {threads next : TimerThreads} {action : TimersAction}

/-- The calls that are about to read find their timers as they were created. -/
def LeavingLive (threads : TimerThreads) : Prop :=
  ∀ timerId ∈ threads.leaving, ∃ located,
    threads.loop.queue.Live located ∧ located.id = timerId

theorem readsOwn_iff : threads.ReadsOwn ↔ threads.LeavingLive := by
  constructor
  · intro reads timerId member
    obtain ⟨next, read, own⟩ := reads timerId member
    obtain ⟨timer, loaded, result⟩ := bind_eq_ok read
    cases result
    have same := (List.cons.inj own).1
    exact ⟨⟨timerId.timer, timer⟩, TimerQueue.live_of_load loaded, same⟩
  · intro live timerId member
    obtain ⟨located, alive, rfl⟩ := live timerId member
    have loaded : threads.loop.queue.load located.address = .ok located.timer :=
      TimerQueue.load_live alive
    have read : threads.returnId located.id = .ok { threads with
        leaving := threads.leaving.erase located.id
        returned := located.id :: threads.returned } := by
      simp only [TimerThreads.returnId, Located.id, loaded, ok_bind]
      rfl
    exact ⟨_, read, rfl⟩

theorem keepsUnread_iff {now : Timestamp} {remaining : List Entry}
    {located : Located}
    (phase : threads.loop.phase = .resetting now (located.entry :: remaining))
    (live : threads.loop.queue.Live located) :
    threads.KeepsUnread (.handleRead .resetOne) ↔
      (located.timer.repeats = true ∧
        located.id ∉ threads.loop.queue.cancelingTimers) ∨
      located.id ∉ threads.leaving := by
  have found : threads.loop.queue.heap located.entry.second =
      some located.timer := live
  simp only [KeepsUnread, phase, found]
  rfl

/-- What is kept as long as no turn of `reset` deletes an unread timer. -/
structure Readable (threads : TimerThreads) : Prop where
  ordered : threads.Ordered
  leaving_live : threads.LeavingLive
  cancels_left : ∀ timerId, .cancelInLoop timerId ∈ threads.functors.waiting →
    timerId ∉ threads.leaving

theorem Readable.new (clock : Timestamp) : (new clock).Readable where
  ordered := new_ordered clock
  leaving_live := by
    intro timerId member
    cases member
  cancels_left := by
    intro timerId member
    cases member

theorem Readable.of_timerStep (readable : threads.Readable)
    {timerAction : TimerAction} {loop : TimerLoop}
    (step : threads.loop.TimerStep timerAction loop)
    (uncancelled : ∀ timerId ∈ threads.leaving,
      timerAction ≠ .cancelInLoop timerId)
    (keeps : timerAction = .resetOne →
      threads.KeepsUnread (.handleRead .resetOne)) :
    ∀ timerId ∈ threads.leaving, ∃ located,
      loop.queue.Live located ∧ located.id = timerId := by
  intro timerId member
  obtain ⟨located, live, rfl⟩ := readable.leaving_live timerId member
  rcases step.id_kept live with kept | cancels | ⟨resets, now, remaining, phase, gone⟩
  · exact kept
  · exact (uncancelled _ member cancels).elim
  · rcases (keepsUnread_iff phase live).mp (keeps resets) with renewed | left
    · exact (gone renewed).elim
    · exact (left member).elim

/-- A call that has just handed its timer over finds it as it was created. -/
theorem Ordered.leaving_caller (ordered : threads.Ordered) {timerId : TimerId}
    (calling : timerId ∈ threads.unadded ++ threads.unqueued)
    {timerAction : TimerAction} {loop : TimerLoop}
    (step : threads.loop.TimerStep timerAction loop) :
    ∃ located, loop.queue.Live located ∧ located.id = timerId := by
  obtain ⟨located, live, rfl⟩ := ordered.callers_live timerId calling
  have pending : located.address ∈ threads.loop.pending := by
    apply ordered.pending_perm.mem_iff.mp
    exact List.mem_append_left _ (List.mem_map_of_mem calling)
  exact ⟨located, step.pending_kept ordered.inv live pending, rfl⟩

theorem Readable.leaving_step (readable : threads.Readable)
    (step : ThreadsStep threads action next)
    (keeps : threads.KeepsUnread action) : next.LeavingLive := by
  cases step with
  | newOwn timerStep =>
      exact readable.of_timerStep timerStep (fun _ _ => by simp) (by simp)
  | newOther timerStep =>
      exact readable.of_timerStep timerStep (fun _ _ => by simp) (by simp)
  | runAdd member timerStep =>
      intro timerId inside
      rcases List.mem_cons.mp inside with rfl | old
      · exact readable.ordered.leaving_caller
          (List.mem_append_left _ member) timerStep
      · exact readable.of_timerStep timerStep (fun _ _ => by simp) (by simp)
          timerId old
  | queueAdd member =>
      intro timerId inside
      rcases List.mem_cons.mp inside with rfl | old
      · exact readable.ordered.callers_live _ (List.mem_append_right _ member)
      · exact readable.leaving_live timerId old
  | returnId live =>
      intro timerId inside
      exact readable.leaving_live timerId (List.mem_of_mem_erase inside)
  | cancelOwn returned timerStep =>
      refine readable.of_timerStep timerStep ?_ (by simp)
      intro timerId member same
      obtain rfl := TimerAction.cancelInLoop.inj same
      exact returned.2.2.2 member
  | cancelOther returned => exact readable.leaving_live
  | swap handled => exact readable.leaving_live
  | @runFunctor functor batch loop front timerStep =>
      refine readable.of_timerStep timerStep ?_ ?_
      · intro timerId member same
        have queued : functor ∈ threads.functors.waiting := by
          simp [BatchQueue.waiting, front]
        cases functor with
        | addTimerInLoop address => cases same
        | cancelInLoop other =>
            obtain rfl := TimerAction.cancelInLoop.inj same
            exact readable.cancels_left _ queued member
      · intro same
        cases functor with
        | addTimerInLoop address => cases same
        | cancelInLoop other => cases same
  | @handleRead timerAction loop ofHandleRead timerStep =>
      refine readable.of_timerStep timerStep ?_ ?_
      · intro timerId _ same
        rw [same] at ofHandleRead
        cases ofHandleRead
      · rintro rfl
        exact keeps

theorem Readable.cancels_step (readable : threads.Readable)
    (step : ThreadsStep threads action next) :
    ∀ timerId, .cancelInLoop timerId ∈ next.functors.waiting →
      timerId ∉ next.leaving := by
  cases step with
  | newOwn | newOther | handleRead | cancelOwn => exact readable.cancels_left
  | @runAdd timerId loop member timerStep =>
      intro other queued inside
      rcases List.mem_cons.mp inside with rfl | old
      · exact (readable.ordered.cancels_returned _ queued).2
          (List.mem_append_left _ member)
      · exact readable.cancels_left other queued old
  | @queueAdd timerId member =>
      intro other queued inside
      rw [BatchQueue.waiting_push] at queued
      have before : .cancelInLoop other ∈ threads.functors.waiting := by
        simpa using queued
      rcases List.mem_cons.mp inside with rfl | old
      · exact (readable.ordered.cancels_returned _ before).2
          (List.mem_append_right _ member)
      · exact readable.cancels_left other before old
  | returnId live =>
      intro other queued inside
      exact readable.cancels_left other queued (List.mem_of_mem_erase inside)
  | @cancelOther timerId returned =>
      intro other queued
      rw [BatchQueue.waiting_push] at queued
      rcases List.mem_append.mp queued with before | last
      · exact readable.cancels_left other before
      · cases List.mem_singleton.mp last
        exact returned.2.2.2
  | swap handled =>
      rw [BatchQueue.waiting_swap handled]
      exact readable.cancels_left
  | @runFunctor functor batch loop front timerStep =>
      intro other queued
      apply readable.cancels_left other
      have waiting : threads.functors.waiting =
          functor :: (batch ++ threads.functors.pending) := by
        simp [BatchQueue.waiting, front]
      rw [waiting]
      exact List.mem_cons_of_mem _ queued

theorem Readable.step (readable : threads.Readable)
    (step : ThreadsStep threads action next)
    (keeps : threads.KeepsUnread action) : next.Readable :=
  ⟨readable.ordered.step step, readable.leaving_step step keeps,
    readable.cancels_step step⟩

/-- Deleting an unread timer is seen by the call that is about to read it. -/
theorem ReadsOwn.keepsUnread (reads : next.ReadsOwn)
    (step : ThreadsStep threads action next) : threads.KeepsUnread action := by
  cases step with
  | @handleRead timerAction loop ofHandleRead timerStep =>
      cases timerAction with
      | resetOne =>
          obtain ⟨now, remaining, located, phase, live, outcome⟩ :=
            timerStep.resetOne_cases
          apply (keepsUnread_iff phase live).mpr
          rcases outcome with renewed | gone
          · exact .inl renewed
          · right
            intro member
            obtain ⟨other, alive, same⟩ := readsOwn_iff.mp reads _ member
            have place : other.address = located.address :=
              congrArg TimerId.timer same
            have found : loop.queue.heap other.address = some other.timer := alive
            rw [place, gone] at found
            cases found
      | create | addTimerInLoop | cancelInLoop | startCalling | runCallback
      | stopCalling | finishReset | setClock => trivial
  | newOwn | newOther | runAdd | queueAdd | returnId | cancelOwn | cancelOther
  | swap | runFunctor => trivial

theorem count_of_mem {timerId : TimerId} {ids : List TimerId}
    (member : timerId ∈ ids) (other : TimerId) :
    (timerId :: ids.erase timerId).count other = ids.count other :=
  (List.perm_cons_erase member).symm.count_eq other

/-- Each step that completes moves ids on, and only a new timer adds one. -/
theorem Readable.ids_perm (readable : threads.Readable)
    (step : ThreadsStep threads action next)
    (calling : ∀ timerId, action = .returnId timerId →
      timerId ∈ threads.leaving) :
    next.ids.Perm (threads.ids ++ (action.creates.map fun address =>
      (⟨address, threads.loop.numCreated + 1⟩ : TimerId)).toList) := by
  cases step with
  | @newOwn address when interval loop timerStep =>
      exact (List.perm_append_singleton _ threads.ids).symm
  | @newOther address when interval loop timerStep =>
      apply List.perm_iff_count.mpr
      intro other
      simp only [ids, TimersAction.creates, Option.map_some, Option.toList_some,
        List.count_append, List.count_cons, List.count_nil]
      omega
  | @runAdd timerId loop member timerStep =>
      apply List.perm_iff_count.mpr
      intro other
      have moved := count_of_mem member other
      simp only [ids, TimersAction.creates, Option.map_none, Option.toList_none,
        List.count_append, List.count_cons, List.count_nil] at moved ⊢
      omega
  | @queueAdd timerId member =>
      apply List.perm_iff_count.mpr
      intro other
      have moved := count_of_mem member other
      simp only [ids, TimersAction.creates, Option.map_none, Option.toList_none,
        List.count_append, List.count_cons, List.count_nil] at moved ⊢
      omega
  | @returnId timerId timer live =>
      have member := calling timerId rfl
      obtain ⟨located, alive, same⟩ := readable.leaving_live timerId member
      have own : (⟨timerId.timer, timer.sequence⟩ : TimerId) = timerId := by
        have place : located.address = timerId.timer :=
          congrArg TimerId.timer same
        rw [alive.unique live place] at same
        exact same
      rw [own]
      apply List.perm_iff_count.mpr
      intro other
      have moved := count_of_mem member other
      simp only [ids, TimersAction.creates, Option.map_none, Option.toList_none,
        List.count_append, List.count_cons, List.count_nil] at moved ⊢
      omega
  | cancelOwn | cancelOther | swap | runFunctor | handleRead =>
      rw [TimersAction.creates, Option.map_none, Option.toList_none,
        List.append_nil]
      exact List.Perm.refl _

theorem numCreated_eq (step : ThreadsStep threads action next) :
    next.loop.numCreated =
      threads.loop.numCreated + action.creates.toList.length := by
  cases step with
  | newOwn timerStep | newOther timerStep =>
      cases timerStep with
      | create free bound => rfl
  | runAdd member timerStep => exact timerStep.numCreated_eq (by simp)
  | cancelOwn returned timerStep => exact timerStep.numCreated_eq (by simp)
  | @runFunctor functor batch loop front timerStep =>
      apply timerStep.numCreated_eq
      cases functor <;> simp [TimerFunctor.action]
  | handleRead ofHandleRead timerStep =>
      apply timerStep.numCreated_eq
      rintro address when interval rfl
      cases ofHandleRead
  | queueAdd | returnId | cancelOther | swap => rfl

end TimerThreads

section TimerIds

variable {mayMove : Timestamp → Timestamp → Prop} {clock : Timestamp}
variable {actions : List TimersAction} {threads : TimerThreads}

theorem run_numCreated
    (runs : (timersMachine mayMove).Run (.new clock) actions threads) :
    threads.Ordered ∧ threads.loop.numCreated = (created actions).length := by
  apply runs.invariant (fun actions threads => threads.Ordered ∧
    threads.loop.numCreated = (created actions).length)
  · exact ⟨TimerThreads.new_ordered clock, rfl⟩
  · rintro actions threads action next _ ⟨ordered, count⟩ enabled stepped
    have step := ordered.stepped enabled stepped
    refine ⟨ordered.step step, ?_⟩
    rw [TimerThreads.numCreated_eq step, created_concat, count,
      List.length_append]
    cases action.creates <;> rfl

theorem restricted_served
    (runs : ((timersMachine mayMove).restrict TimerThreads.KeepsUnread).Run
      (.new clock) actions threads) :
    threads.Readable ∧ threads.ids.Perm (created actions) := by
  apply runs.invariant (fun actions threads => threads.Readable ∧
    threads.ids.Perm (created actions))
  · exact ⟨.new clock, .nil⟩
  · rintro actions threads action next before ⟨readable, perm⟩ ⟨enabled, keeps⟩
      stepped
    have step := readable.ordered.stepped enabled stepped
    refine ⟨readable.step step keeps, ?_⟩
    have moved := readable.ids_perm step (by
      rintro timerId rfl
      exact enabled)
    have count := (run_numCreated before.of_restrict).2
    rw [created_concat, ← count]
    exact moved.trans (perm.append_right _)

/-- Along a run of the loop and of the threads that call its timer queue, every call
of `addTimer` can read its timer as soon as it has handed it over and returns the
number that the timer was created with, if and only if the end of `handleRead` never
deletes a timer that its call has still to read. -/
theorem addTimer_reads_own_iff
    (runs : (timersMachine mayMove).Run (.new clock) actions threads) :
    (∀ first second middle, actions = first ++ second →
      (timersMachine mayMove).Run (.new clock) first middle →
        middle.Served first) ↔
      ((timersMachine mayMove).restrict TimerThreads.KeepsUnread).Run
        (.new clock) actions threads := by
  have exactly : (∀ first second middle, actions = first ++ second →
      (timersMachine mayMove).Run (.new clock) first middle →
        middle.ReadsOwn) ↔
      ((timersMachine mayMove).restrict TimerThreads.KeepsUnread).Run
        (.new clock) actions threads := by
    apply runs.always_iff_of_restrict (TimerThreads.Readable.new clock)
    · intro threads readable
      exact TimerThreads.readsOwn_iff.mpr readable.leaving_live
    · intro threads action next readable enabled keeps stepped
      exact readable.step (readable.ordered.stepped enabled stepped) keeps
    · intro threads action next readable enabled stepped reads
      exact reads.keepsUnread (readable.ordered.stepped enabled stepped)
  constructor
  · intro always
    apply exactly.mp
    intro first second middle split reached
    exact (always first second middle split reached).reads
  · intro restricted first second middle split reached
    rw [split] at restricted
    obtain ⟨state, earlier, _⟩ := restricted.split
    obtain rfl := reached.unique earlier.of_restrict
    obtain ⟨readable, perm⟩ := restricted_served earlier
    exact ⟨TimerThreads.readsOwn_iff.mpr readable.leaving_live, perm,
      distinct_created first⟩

instance decidableKeepsUnread (threads : TimerThreads) (action : TimersAction) :
    Decidable (threads.KeepsUnread action) := by
  unfold TimerThreads.KeepsUnread
  split
  · split
    · split
      · infer_instance
      · infer_instance
    · infer_instance
  · infer_instance

/-- Two calls of other threads; the first has read its timer before it runs and is
deleted, the second is queued at the address that became free. -/
theorem addTimer_reads_own_iff_reused :
    ∃ (actions : List TimersAction) (threads : TimerThreads),
      (timersMachine (· ≤ ·)).Run (.new 10) actions threads ∧
      threads.loop.queue.deleted = [⟨7, 1⟩] ∧ threads.leaving = [⟨7, 2⟩] ∧
      threads.Served actions := by
  let actions : List TimersAction :=
    [.newTimer .otherThread 7 20 ⟨false, 0, by decide⟩, .queueAdd ⟨7, 1⟩,
      .returnId ⟨7, 1⟩, .swap, .runFunctor, .handleRead (.setClock 20),
      .handleRead .startCalling, .handleRead .runCallback,
      .handleRead .stopCalling, .handleRead .resetOne,
      .handleRead .finishReset, .newTimer .otherThread 7 30 ⟨false, 0, by decide⟩,
      .queueAdd ⟨7, 2⟩]
  have found : (((timersMachine (· ≤ ·)).restrict
      TimerThreads.KeepsUnread).execute (.new 10) actions).any
      (fun threads => threads.loop.queue.deleted = [⟨7, 1⟩] ∧
        threads.leaving = [⟨7, 2⟩]) = true := by
    decide +kernel
  obtain ⟨threads, restricted, accepted⟩ := Machine.run_of_execute found
  obtain ⟨deleted, leaving⟩ := of_decide_eq_true accepted
  have runs := restricted.of_restrict
  have always := (addTimer_reads_own_iff runs).mpr restricted
  exact ⟨actions, threads, runs, deleted, leaving,
    always actions [] threads (List.append_nil _).symm runs⟩

/-- The timer expires and is deleted before its call reads it; with its address given
to another timer the call returns the number of that one. -/
theorem addTimer_reads_deleted :
    (∃ (actions : List TimersAction) (threads : TimerThreads),
      (timersMachine (· ≤ ·)).Run (.new 10) actions threads ∧
      ⟨7, 1⟩ ∈ threads.leaving ∧
      threads.loop.queue.deleted = [⟨7, 1⟩] ∧
      threads.step (.returnId ⟨7, 1⟩) = .error .timerLoad) ∧
    ∃ (actions : List TimersAction) (threads : TimerThreads),
      (timersMachine (· ≤ ·)).Run (.new 10) actions threads ∧
      created actions = [⟨7, 1⟩, ⟨7, 2⟩] ∧ threads.returned = [⟨7, 2⟩] ∧
      threads.leaving = [] ∧ threads.unqueued = [⟨7, 2⟩] := by
  let before : List TimersAction :=
    [.newTimer .otherThread 7 20 ⟨false, 0, by decide⟩, .queueAdd ⟨7, 1⟩, .swap,
      .runFunctor, .handleRead (.setClock 20), .handleRead .startCalling,
      .handleRead .runCallback, .handleRead .stopCalling, .handleRead .resetOne]
  let behind : List TimersAction :=
    [.newTimer .otherThread 7 30 ⟨false, 0, by decide⟩, .returnId ⟨7, 1⟩]
  have gone : ((timersMachine (· ≤ ·)).execute (.new 10) before).any
      (fun threads => ⟨7, 1⟩ ∈ threads.leaving ∧
        threads.loop.queue.deleted = [⟨7, 1⟩] ∧
        threads.loop.queue.heap 7 = none) = true := by
    decide +kernel
  have reused : ((timersMachine (· ≤ ·)).execute (.new 10)
      (before ++ behind)).any
      (fun threads => threads.returned = [⟨7, 2⟩] ∧ threads.leaving = [] ∧
        threads.unqueued = [⟨7, 2⟩]) = true := by
    decide +kernel
  obtain ⟨threads, runs, accepted⟩ := Machine.run_of_execute gone
  obtain ⟨other, otherRuns, otherAccepted⟩ := Machine.run_of_execute reused
  obtain ⟨leaving, deleted, free⟩ := of_decide_eq_true accepted
  obtain ⟨returned, left, unqueued⟩ := of_decide_eq_true otherAccepted
  refine ⟨⟨before, threads, runs, leaving, deleted, ?_⟩, before ++ behind, other,
    otherRuns, by decide, returned, left, unqueued⟩
  have fails : threads.loop.queue.load 7 = .error .timerLoad := by
    simp only [TimerQueue.load, free]
  simp only [TimerThreads.step, TimerThreads.returnId, fails]
  rfl

end TimerIds

end Muduo
