import Muduo.Net.TimerSpecs

/-!
# Who owns the timers

Every allocated timer is named once in the list `owned`: it waits to be added,
is in the sets of the queue, or belongs to the part of an expired batch that is
still to be reset.  `TimerStep` says once what a step can do to a loop that
keeps this; everything else about runs is derived from it.
-/

namespace Muduo

open Library

/-- Sequence numbers are given once, and none is lost: each belongs to an
allocated timer or to a deleted one. -/
structure Numbered (queue : TimerQueue) (numCreated : Nat) : Prop where
  live_le : ∀ located, queue.Live located →
    0 < located.timer.sequence ∧ located.timer.sequence ≤ numCreated
  live_unique : ∀ located other, queue.Live located → queue.Live other →
    located.timer.sequence = other.timer.sequence → located = other
  deleted_le : ∀ id ∈ queue.deleted, id.sequence ≤ numCreated
  deleted_dead : ∀ id ∈ queue.deleted, ∀ located, queue.Live located →
    located.timer.sequence ≠ id.sequence
  deleted_nodup : (queue.deleted.map TimerId.sequence).Nodup
  accounted : ∀ number, 0 < number → number ≤ numCreated →
    (∃ located, queue.Live located ∧ located.timer.sequence = number) ∨
      number ∈ queue.deleted.map TimerId.sequence

namespace Numbered

variable {queue : TimerQueue} {numCreated : Nat}

theorem new (clock : Timestamp) : Numbered (.new clock) 0 where
  live_le := by
    intro located live
    cases live
  live_unique := by
    intro located other live
    cases live
  deleted_le := by
    intro id member
    cases member
  deleted_dead := by
    intro id member
    cases member
  deleted_nodup := .nil
  accounted := by
    intro number positive bound
    omega

theorem congr (numbered : Numbered queue numCreated) {next : TimerQueue}
    (heap : next.heap = queue.heap) (deleted : next.deleted = queue.deleted) :
    Numbered next numCreated := by
  have live : ∀ located, next.Live located ↔ queue.Live located := by
    intro located
    simp only [TimerQueue.Live, heap]
  constructor
  · intro located alive
    exact numbered.live_le located ((live located).mp alive)
  · intro located other alive aliveOther
    exact numbered.live_unique located other ((live located).mp alive)
      ((live other).mp aliveOther)
  · rw [deleted]
    exact numbered.deleted_le
  · rw [deleted]
    intro id member located alive
    exact numbered.deleted_dead id member located ((live located).mp alive)
  · rw [deleted]
    exact numbered.deleted_nodup
  · intro number positive bound
    rcases numbered.accounted number positive bound with
      ⟨located, alive, same⟩ | gone
    · exact .inl ⟨located, (live located).mpr alive, same⟩
    · exact .inr (deleted ▸ gone)

theorem create (numbered : Numbered queue numCreated) {address : Nat}
    (free : queue.heap address = none) {timer : Timer}
    (next : timer.sequence = numCreated + 1) :
    Numbered (queue.store address timer) (numCreated + 1) := by
  have live : ∀ {located}, (queue.store address timer).Live located ↔
      located = ⟨address, timer⟩ ∨ queue.Live located :=
    TimerQueue.live_store_free free
  have older : ∀ {located}, queue.Live located →
      located.timer.sequence ≠ timer.sequence := by
    intro located alive same
    have bound := (numbered.live_le located alive).2
    omega
  constructor
  · intro located alive
    rcases live.mp alive with rfl | old
    · rw [next]
      exact ⟨Nat.succ_pos _, Nat.le_refl _⟩
    · have bound := numbered.live_le located old
      exact ⟨bound.1, by omega⟩
  · intro located other alive aliveOther same
    rcases live.mp alive with rfl | old
    · rcases live.mp aliveOther with rfl | oldOther
      · rfl
      · exact (older oldOther same.symm).elim
    · rcases live.mp aliveOther with rfl | oldOther
      · exact (older old same).elim
      · exact numbered.live_unique located other old oldOther same
  · intro id member
    exact Nat.le_succ_of_le (numbered.deleted_le id member)
  · intro id member located alive
    rcases live.mp alive with rfl | old
    · have bound := numbered.deleted_le id member
      simp only
      omega
    · exact numbered.deleted_dead id member located old
  · exact numbered.deleted_nodup
  · intro number positive bound
    by_cases last : number = numCreated + 1
    · exact .inl ⟨⟨address, timer⟩, live.mpr (.inl rfl), next.trans last.symm⟩
    · rcases numbered.accounted number positive (by omega) with
        ⟨located, alive, same⟩ | gone
      · exact .inl ⟨located, live.mpr (.inr alive), same⟩
      · exact .inr gone

theorem freed (numbered : Numbered queue numCreated) {located : Located}
    (alive : queue.Live located) :
    Numbered (queue.freed located) numCreated := by
  have live : ∀ {other}, (queue.freed located).Live other ↔
      other.address ≠ located.address ∧ queue.Live other :=
    TimerQueue.live_freed
  have deleted : (queue.freed located).deleted =
      queue.deleted ++ [located.id] := rfl
  constructor
  · intro other aliveOther
    exact numbered.live_le other (live.mp aliveOther).2
  · intro first second aliveFirst aliveSecond same
    exact numbered.live_unique first second (live.mp aliveFirst).2
      (live.mp aliveSecond).2 same
  · intro id member
    rcases List.mem_append.mp member with old | new
    · exact numbered.deleted_le id old
    · rw [List.mem_singleton.mp new]
      exact (numbered.live_le located alive).2
  · intro id member other aliveOther
    obtain ⟨different, before⟩ := live.mp aliveOther
    rcases List.mem_append.mp member with old | new
    · exact numbered.deleted_dead id old other before
    · rw [List.mem_singleton.mp new]
      intro same
      exact different (congrArg Located.address
        (numbered.live_unique other located before alive same))
  · rw [deleted, List.map_append, List.nodup_append]
    refine ⟨numbered.deleted_nodup, List.nodup_singleton _, ?_⟩
    intro number member other new
    obtain ⟨id, old, rfl⟩ := List.mem_map.mp member
    rw [List.mem_singleton.mp new]
    exact (numbered.deleted_dead id old located alive).symm
  · intro number positive bound
    rw [deleted, List.map_append, List.mem_append]
    rcases numbered.accounted number positive bound with
      ⟨other, aliveOther, same⟩ | gone
    · by_cases here : other = located
      · subst here
        exact .inr (.inr (List.mem_singleton.mpr same.symm))
      · refine .inl ⟨other, live.mpr ⟨?_, aliveOther⟩, same⟩
        intro place
        exact here (aliveOther.unique alive place)
    · exact .inr (.inl gone)

theorem renumber (numbered : Numbered queue numCreated) {located : Located}
    (alive : queue.Live located) {timer : Timer}
    (same : timer.sequence = located.timer.sequence) :
    Numbered (queue.store located.address timer) numCreated := by
  have back : ∀ {other}, (queue.store located.address timer).Live other →
      ∃ old, queue.Live old ∧ old.address = other.address ∧
        old.timer.sequence = other.timer.sequence := by
    intro other aliveOther
    rcases TimerQueue.live_store.mp aliveOther with rfl | ⟨_, old⟩
    · exact ⟨located, alive, rfl, same.symm⟩
    · exact ⟨other, old, rfl, rfl⟩
  constructor
  · intro other aliveOther
    obtain ⟨old, aliveOld, _, number⟩ := back aliveOther
    rw [← number]
    exact numbered.live_le old aliveOld
  · intro first second aliveFirst aliveSecond number
    obtain ⟨old, aliveOld, place, numberOld⟩ := back aliveFirst
    obtain ⟨other, aliveOther, placeOther, numberOther⟩ := back aliveSecond
    have equal := numbered.live_unique old other aliveOld aliveOther
      (numberOld.trans (number.trans numberOther.symm))
    apply aliveFirst.unique aliveSecond
    rw [← place, ← placeOther, equal]
  · exact numbered.deleted_le
  · intro id member other aliveOther
    obtain ⟨old, aliveOld, _, number⟩ := back aliveOther
    rw [← number]
    exact numbered.deleted_dead id member old aliveOld
  · exact numbered.deleted_nodup
  · intro number positive bound
    rcases numbered.accounted number positive bound with
      ⟨other, aliveOther, numberOther⟩ | gone
    · left
      by_cases here : other = located
      · subst here
        exact ⟨⟨other.address, timer⟩, TimerQueue.live_store.mpr (.inl rfl),
          same.trans numberOther⟩
      · refine ⟨other, TimerQueue.live_store.mpr (.inr ⟨?_, aliveOther⟩),
          numberOther⟩
        intro place
        exact here (aliveOther.unique alive place)
    · exact .inr gone

end Numbered

namespace TimerLoop

/-- Where each allocated timer is: not yet added, in the queue, or in the batch. -/
def owned (loop : TimerLoop) : List Nat :=
  loop.pending ++
    (loop.queue.timers.items ++ loop.phase.batch).map Entry.second

structure Inv (loop : TimerLoop) : Prop where
  agree : loop.queue.Agree
  owns : Owns loop.queue.heap loop.owned
  addressed : ∀ address, loop.queue.heap address ≠ none →
    address < UINTPTR_MAX
  batch_live : ∀ entry ∈ loop.phase.batch,
    ∃ located, loop.queue.Live located ∧ located.entry = entry
  calling : loop.queue.callingExpiredTimers = loop.phase.isCalling
  numbered : Numbered loop.queue loop.numCreated

theorem new_inv (clock : Timestamp) : (TimerLoop.new clock).Inv where
  agree := .new clock
  owns := by
    constructor
    · exact .nil
    · intro address
      exact ⟨fun member => absurd member List.not_mem_nil,
        fun allocated => (Bool.false_ne_true allocated).elim⟩
  addressed := by
    intro address allocated
    exact (allocated rfl).elim
  batch_live := by
    intro entry member
    cases member
  calling := rfl
  numbered := .new clock

/-- What a step can do to a loop. -/
inductive TimerStep (loop : TimerLoop) : TimerAction → TimerLoop → Prop where
  | create {address : Nat} {when : Timestamp} {interval : Interval} :
      loop.queue.heap address = none →
      address < UINTPTR_MAX →
      TimerStep loop (.create address when interval) { loop with
        queue := loop.queue.store address
          (.new when interval (loop.numCreated + 1))
        pending := address :: loop.pending
        numCreated := loop.numCreated + 1 }
  | add {located : Located} :
      loop.phase.CallsQueue →
      loop.queue.Live located →
      loop.queue.Apart located.address →
      located.address ∈ loop.pending →
      TimerStep loop (.addTimerInLoop located.address) { loop with
        queue := loop.queue.added located
        pending := loop.pending.erase located.address
        history := loop.history ++ [.added located] }
  | cancelHeld {located : Located} :
      loop.phase.CallsQueue →
      loop.queue.Holds located →
      TimerStep loop (.cancelInLoop located.id) { loop with
        queue := loop.queue.drop located
        history := loop.history ++ [.cancelled located.id] }
  | cancelCalling {timerId : TimerId} :
      loop.phase.CallsQueue →
      (∀ located, loop.queue.Holds located → located.id ≠ timerId) →
      loop.phase.isCalling = true →
      TimerStep loop (.cancelInLoop timerId) { loop with
        queue := loop.queue.remember timerId
        history := loop.history ++ [.cancelled timerId] }
  | cancelIdle {timerId : TimerId} :
      (∀ located, loop.queue.Holds located → located.id ≠ timerId) →
      loop.phase = .idle →
      TimerStep loop (.cancelInLoop timerId) { loop with
        history := loop.history ++ [.cancelled timerId] }
  | start {queue : TimerQueue} :
      loop.phase = .idle →
      loop.queue.StartsCalling queue loop.queue.clock →
      TimerStep loop .startCalling { loop with
        queue
        phase := .calling loop.queue.clock []
          (loop.queue.expired loop.queue.clock) }
  | run {now : Timestamp} {ran remaining : List Entry} {located : Located} :
      loop.phase = .calling now ran (located.entry :: remaining) →
      loop.queue.Live located →
      TimerStep loop .runCallback { loop with
        phase := .calling now (ran ++ [located.entry]) remaining
        history := loop.history ++ [.ran located now] }
  | stop {now : Timestamp} {ran : List Entry} :
      loop.phase = .calling now ran [] →
      TimerStep loop .stopCalling { loop with
        queue := loop.queue.stopCalling, phase := .resetting now ran }
  | renew {now : Timestamp} {remaining : List Entry} {located : Located} :
      loop.phase = .resetting now (located.entry :: remaining) →
      loop.queue.Live located →
      loop.queue.Apart located.address →
      located.timer.repeats = true →
      located.id ∉ loop.queue.cancelingTimers →
      TimerStep loop .resetOne { loop with
        queue := loop.queue.renewed located now
        phase := .resetting now remaining }
  | discard {now : Timestamp} {remaining : List Entry} {located : Located} :
      loop.phase = .resetting now (located.entry :: remaining) →
      loop.queue.Live located →
      loop.queue.Apart located.address →
      ¬ (located.timer.repeats = true ∧
        located.id ∉ loop.queue.cancelingTimers) →
      TimerStep loop .resetOne { loop with
        queue := loop.queue.freed located
        phase := .resetting now remaining }
  | finish {now : Timestamp} :
      loop.phase = .resetting now [] →
      TimerStep loop .finishReset { loop with
        queue := loop.queue.rearmed, phase := .idle }
  | setClock (clock : Timestamp) :
      TimerStep loop (.setClock clock) { loop with
        queue := loop.queue.setClock clock }

theorem Inv.apart_pending {loop : TimerLoop} (inv : loop.Inv)
    {address : Nat} (member : address ∈ loop.pending) :
    loop.queue.Apart address := by
  intro entry held same
  obtain ⟨_, _, apart⟩ := List.nodup_append.mp inv.owns.nodup
  apply apart address member entry.second ?_ same.symm
  exact List.mem_map_of_mem (List.mem_append_left _ held)

theorem Inv.apart_batch {loop : TimerLoop} (inv : loop.Inv)
    {entry : Entry} (member : entry ∈ loop.phase.batch) :
    loop.queue.Apart entry.second := by
  intro other held same
  have distinct := (List.nodup_append.mp inv.owns.nodup).2.1
  rw [List.map_append] at distinct
  obtain ⟨_, _, apart⟩ := List.nodup_append.mp distinct
  exact apart other.second (List.mem_map_of_mem held) entry.second
    (List.mem_map_of_mem member) same

theorem Inv.addressed_queue {loop : TimerLoop} (inv : loop.Inv) :
    loop.queue.Addressed := by
  intro entry member
  obtain ⟨located, live, rfl⟩ := inv.agree.entry_live entry member
  apply inv.addressed
  intro free
  rw [TimerQueue.Live] at live
  cases live.symm.trans free

theorem Inv.live_pending {loop : TimerLoop} (inv : loop.Inv)
    {address : Nat} (member : address ∈ loop.pending) :
    ∃ located, loop.queue.Live located ∧ located.address = address := by
  have owned : address ∈ loop.owned := List.mem_append_left _ member
  obtain ⟨timer, found⟩ :=
    Option.isSome_iff_exists.mp ((inv.owns.mem_iff address).mp owned)
  exact ⟨⟨address, timer⟩, found, rfl⟩

/-- The loop is idle where the queue may be called but no callback runs. -/
theorem idle_of_callsQueue {phase : Phase} (calls : phase.CallsQueue)
    (quiet : phase.isCalling = false) : phase = .idle := by
  cases phase with
  | idle => rfl
  | calling now ran remaining => cases quiet
  | resetting now remaining => cases calls

theorem exists_of_hasCallback {phase : Phase}
    (more : phase.hasCallback = true) :
    ∃ now ran entry remaining,
      phase = .calling now ran (entry :: remaining) := by
  cases phase with
  | idle => cases more
  | resetting now remaining => cases more
  | calling now ran remaining =>
      cases remaining with
      | nil => cases more
      | cons entry remaining => exact ⟨now, ran, entry, remaining, rfl⟩

theorem exists_of_callbacksDone {phase : Phase}
    (done : phase.callbacksDone = true) :
    ∃ now ran, phase = .calling now ran [] := by
  cases phase with
  | idle => cases done
  | resetting now remaining => cases done
  | calling now ran remaining =>
      cases remaining with
      | nil => exact ⟨now, ran, rfl⟩
      | cons entry remaining => cases done

theorem exists_of_hasReset {phase : Phase} (more : phase.hasReset = true) :
    ∃ now entry remaining, phase = .resetting now (entry :: remaining) := by
  cases phase with
  | idle => cases more
  | calling now ran remaining => cases more
  | resetting now remaining =>
      cases remaining with
      | nil => cases more
      | cons entry remaining => exact ⟨now, entry, remaining, rfl⟩

theorem exists_of_resetsDone {phase : Phase}
    (done : phase.resetsDone = true) : ∃ now, phase = .resetting now [] := by
  cases phase with
  | idle => cases done
  | calling now ran remaining => cases done
  | resetting now remaining =>
      cases remaining with
      | nil => exact ⟨now, rfl⟩
      | cons entry remaining => cases done

/-- A step that may be taken completes. -/
theorem Inv.step {loop : TimerLoop} (inv : loop.Inv)
    {mayMove : Timestamp → Timestamp → Prop} {action : TimerAction}
    (enabled : loop.Enabled mayMove action) :
    ∃ next, loop.step action = .ok next ∧ TimerStep loop action next := by
  cases action with
  | create address when interval =>
      obtain ⟨free, bound⟩ := enabled
      exact ⟨_, rfl, .create free bound⟩
  | addTimerInLoop address =>
      obtain ⟨member, calls⟩ := enabled
      obtain ⟨located, live, rfl⟩ := inv.live_pending member
      have apart := inv.apart_pending member
      obtain ⟨result, _⟩ := inv.agree.addTimerInLoop live apart
      refine ⟨_, ?_, .add calls live apart member⟩
      rw [TimerLoop.step, TimerQueue.load_live live, ok_bind, result]
      rfl
  | cancelInLoop timerId =>
      have calls : loop.phase.CallsQueue := enabled
      rcases inv.agree.cancelInLoop timerId with
        ⟨located, holds, rfl, result⟩ | ⟨absent, calling | waiting⟩
      · refine ⟨_, ?_, .cancelHeld calls holds⟩
        rw [TimerLoop.step, result]
        rfl
      · obtain ⟨flag, result⟩ := calling
        rw [inv.calling] at flag
        refine ⟨_, ?_, .cancelCalling calls absent flag⟩
        rw [TimerLoop.step, result]
        rfl
      · obtain ⟨flag, result⟩ := waiting
        rw [inv.calling] at flag
        have idle := idle_of_callsQueue calls flag
        refine ⟨_, ?_, .cancelIdle absent idle⟩
        rw [TimerLoop.step, result]
        rfl
  | startCalling =>
      have idle : loop.phase = .idle := enabled
      obtain ⟨queue, result, starts⟩ :=
        inv.agree.startCalling inv.addressed_queue loop.queue.clock
      refine ⟨_, ?_, .start idle starts⟩
      simp only [TimerLoop.step, result, ok_bind]
      rfl
  | runCallback =>
      obtain ⟨now, ran, entry, remaining, phase⟩ :=
        exists_of_hasCallback enabled
      have live := inv.batch_live
      rw [phase] at live
      obtain ⟨located, alive, rfl⟩ := live entry (by simp [Phase.batch])
      have loads : loop.queue.load located.entry.second =
          .ok located.timer := TimerQueue.load_live alive
      refine ⟨_, ?_, .run phase alive⟩
      simp only [TimerLoop.step, phase, loads, ok_bind]
      rfl
  | stopCalling =>
      obtain ⟨now, ran, phase⟩ := exists_of_callbacksDone enabled
      refine ⟨_, ?_, .stop phase⟩
      simp only [TimerLoop.step, phase]
  | resetOne =>
      obtain ⟨now, entry, remaining, phase⟩ := exists_of_hasReset enabled
      have live := inv.batch_live
      rw [phase] at live
      obtain ⟨located, alive, rfl⟩ := live entry (by simp [Phase.batch])
      have member : located.entry ∈ loop.phase.batch := by
        simp [phase, Phase.batch]
      have apart : loop.queue.Apart located.address :=
        inv.apart_batch member
      rcases inv.agree.resetOne alive apart now with
        ⟨⟨repeats, kept⟩, result, _⟩ | ⟨gone, result, _⟩
      · refine ⟨_, ?_, .renew phase alive apart repeats kept⟩
        simp only [TimerLoop.step, phase, result, ok_bind]
        rfl
      · refine ⟨_, ?_, .discard phase alive apart gone⟩
        simp only [TimerLoop.step, phase, result, ok_bind]
        rfl
  | finishReset =>
      obtain ⟨now, phase⟩ := exists_of_resetsDone enabled
      obtain ⟨result, _⟩ := inv.agree.finishReset
      refine ⟨_, ?_, .finish phase⟩
      simp only [TimerLoop.step, result, ok_bind]
      rfl
  | setClock clock => exact ⟨_, rfl, .setClock clock⟩

theorem Inv.stepped {loop next : TimerLoop} (inv : loop.Inv)
    {mayMove : Timestamp → Timestamp → Prop} {action : TimerAction}
    (enabled : (timerMachine mayMove).enabled loop action)
    (stepped : (timerMachine mayMove).step loop action = .ok next) :
    TimerStep loop action next := by
  obtain ⟨reached, result, step⟩ := inv.step enabled
  obtain rfl : next = reached := Except.ok.inj (stepped.symm.trans result)
  exact step

section Steps

variable {loop : TimerLoop} {located : Located}

theorem Inv.congr (inv : loop.Inv) {next : TimerLoop}
    (timers : next.queue.timers = loop.queue.timers)
    (active : next.queue.activeTimers = loop.queue.activeTimers)
    (heap : next.queue.heap = loop.queue.heap)
    (deleted : next.queue.deleted = loop.queue.deleted)
    (numCreated : next.numCreated = loop.numCreated)
    (pending : next.pending = loop.pending)
    (batch : next.phase.batch = loop.phase.batch)
    (calling : next.queue.callingExpiredTimers = next.phase.isCalling) :
    next.Inv where
  agree := inv.agree.congr timers active fun _ _ => by rw [heap]
  owns := by
    rw [owned, timers, heap, pending, batch]
    exact inv.owns
  addressed := by
    rw [heap]
    exact inv.addressed
  batch_live := by
    rw [batch]
    intro entry member
    obtain ⟨located, live, same⟩ := inv.batch_live entry member
    exact ⟨located, (congrFun heap _).trans live, same⟩
  calling := calling
  numbered := by
    rw [numCreated]
    exact inv.numbered.congr heap deleted

theorem Inv.create (inv : loop.Inv) {address : Nat} {when : Timestamp}
    {interval : Interval} (free : loop.queue.heap address = none)
    (bound : address < UINTPTR_MAX) :
    Inv { loop with
      queue := loop.queue.store address
        (.new when interval (loop.numCreated + 1))
      pending := address :: loop.pending
      numCreated := loop.numCreated + 1 } where
  agree := inv.agree.store (inv.agree.apart_free free) _
  owns := inv.owns.alloc free _
  addressed := by
    intro other allocated
    by_cases same : other = address
    · rw [same]
      exact bound
    · apply inv.addressed
      intro none
      exact allocated ((write_other same).trans none)
  batch_live := by
    intro entry member
    obtain ⟨located, live, same⟩ := inv.batch_live entry member
    exact ⟨located, (TimerQueue.live_store_free free).mpr (.inr live), same⟩
  calling := inv.calling
  numbered := inv.numbered.create free rfl

theorem Inv.add (inv : loop.Inv) (live : loop.queue.Live located)
    (apart : loop.queue.Apart located.address)
    (member : located.address ∈ loop.pending) (history : List TimerEvent) :
    Inv { loop with
      queue := loop.queue.added located
      pending := loop.pending.erase located.address
      history } where
  agree := (inv.agree.addTimerInLoop live apart).2
  owns := by
    have first := List.perm_cons_erase member
    have second := (OrderedSet.items_insert_perm apart.not_mem).append_right
      loop.phase.batch
    rw [TimerQueue.added_eq]
    exact inv.owns.perm ((first.append_right _).trans
      (List.perm_middle.symm.trans
        ((second.map Entry.second).append_left _)))
  addressed := by
    rw [TimerQueue.added_eq]
    exact inv.addressed
  batch_live := by
    rw [TimerQueue.added_eq]
    exact inv.batch_live
  calling := by
    rw [TimerQueue.added_eq]
    exact inv.calling
  numbered := by
    rw [TimerQueue.added_eq]
    exact inv.numbered.congr rfl rfl

theorem Inv.addressed_write (inv : loop.Inv)
    (live : loop.queue.Live located) {timer : Option Timer} {address : Nat}
    (allocated : write loop.queue.heap located.address timer address ≠ none) :
    address < UINTPTR_MAX := by
  apply inv.addressed
  intro none
  by_cases same : address = located.address
  · rw [TimerQueue.Live, ← same, none] at live
    cases live
  · exact allocated ((write_other same).trans none)

/-- A timer without an owner is deleted; what is left of the batch is not it. -/
private theorem Inv.delete (inv : loop.Inv)
    (live : loop.queue.Live located) {owned : List Nat}
    (moved : loop.owned.Perm (located.address :: owned)) :
    Owns (loop.queue.freed located).heap owned ∧
      (∀ address, (loop.queue.freed located).heap address ≠ none →
        address < UINTPTR_MAX) ∧
      ∀ entry ∈ loop.phase.batch, entry.second ≠ located.address →
        ∃ other, (loop.queue.freed located).Live other ∧
          other.entry = entry := by
  refine ⟨(inv.owns.perm moved).free,
    fun _ allocated => inv.addressed_write live allocated, ?_⟩
  · intro entry member different
    obtain ⟨other, alive, rfl⟩ := inv.batch_live entry member
    exact ⟨other, TimerQueue.live_freed.mpr ⟨different, alive⟩, rfl⟩

theorem Inv.drop (inv : loop.Inv) (holds : loop.queue.Holds located)
    (history : List TimerEvent) :
    Inv { loop with queue := loop.queue.drop located, history } := by
  have moved : loop.owned.Perm (located.address :: (loop.pending ++
      ((loop.queue.drop located).timers.items ++
        loop.phase.batch).map Entry.second)) := by
    have split := (OrderedSet.items_erase_perm holds.2).append_right
      loop.phase.batch
    exact ((split.map Entry.second).append_left _).trans List.perm_middle
  obtain ⟨owns, addressed, batch⟩ := inv.delete holds.1 moved
  refine ⟨inv.agree.drop holds, owns, addressed, ?_, inv.calling,
    (inv.numbered.freed holds.1).congr rfl rfl⟩
  intro entry member
  apply batch entry member
  intro same
  exact inv.apart_batch member located.entry holds.2 same.symm

theorem Inv.start (inv : loop.Inv) (idle : loop.phase = .idle)
    {queue : TimerQueue}
    (starts : loop.queue.StartsCalling queue loop.queue.clock) :
    Inv { loop with
      queue
      phase := .calling loop.queue.clock []
        (loop.queue.expired loop.queue.clock) } := by
  have heap : queue.heap = loop.queue.heap := by
    rw [starts.same, TimerQueue.readTimerfd_eq]
  have deleted : queue.deleted = loop.queue.deleted := by
    rw [starts.same, TimerQueue.readTimerfd_eq]
  have calling : queue.callingExpiredTimers = true := by
    rw [starts.same]
  have moved : loop.owned.Perm (loop.pending ++ (queue.timers.items ++
      loop.queue.expired loop.queue.clock).map Entry.second) := by
    rw [owned, idle, starts.items]
    have swapped : (loop.queue.expired loop.queue.clock ++
        queue.timers.items ++ []).Perm (queue.timers.items ++
          loop.queue.expired loop.queue.clock) := by
      rw [List.append_nil]
      exact List.perm_append_comm
    exact (swapped.map Entry.second).append_left _
  refine ⟨starts.agree, heap ▸ inv.owns.perm moved, heap ▸ inv.addressed, ?_,
    calling, inv.numbered.congr heap deleted⟩
  intro entry member
  obtain ⟨located, live, same⟩ :=
    inv.agree.entry_live entry (TimerQueue.mem_expired.mp member).1
  exact ⟨located, (congrFun heap _).trans live, same⟩

variable {now : Timestamp} {remaining : List Entry}

theorem Inv.batch_distinct (inv : loop.Inv)
    (phase : loop.phase = .resetting now (located.entry :: remaining)) :
    ∀ entry ∈ remaining, entry.second ≠ located.address := by
  intro entry member same
  have distinct := (List.nodup_append.mp inv.owns.nodup).2.1
  rw [phase, List.map_append] at distinct
  have apart := (List.nodup_cons.mp (List.nodup_append.mp distinct).2.1).1
  apply apart
  have place : located.entry.second = entry.second := same.symm
  rw [place]
  exact List.mem_map_of_mem member

theorem Inv.renew (inv : loop.Inv)
    (phase : loop.phase = .resetting now (located.entry :: remaining))
    (live : loop.queue.Live located)
    (apart : loop.queue.Apart located.address) :
    Inv { loop with
      queue := loop.queue.renewed located now
      phase := .resetting now remaining } := by
  have stored : (loop.queue.store located.address
      (located.timer.restart now)).Live (located.restart now) :=
    TimerQueue.live_store.mpr (.inl rfl)
  have agree := ((inv.agree.store apart (located.timer.restart now)).insert
    stored apart).2
  have moved : loop.owned.Perm (loop.pending ++
      ((loop.queue.renewed located now).timers.items ++
        remaining).map Entry.second) := by
    have fresh : (located.restart now).entry ∉ loop.queue.timers :=
      fun member => apart _ member rfl
    have inserted := (OrderedSet.items_insert_perm fresh).append_right
      remaining
    have shape : (loop.queue.timers.items ++
        (located.entry :: remaining)).map Entry.second =
        loop.queue.timers.items.map Entry.second ++
          located.address :: remaining.map Entry.second := by
      rw [List.map_append]
      rfl
    rw [owned, phase]
    apply List.Perm.append_left
    rw [Phase.batch, shape]
    apply List.perm_middle.trans
    rw [← List.map_append]
    exact inserted.map Entry.second
  have member : located.address ∈ loop.owned := by
    rw [owned, phase]
    simp [Phase.batch, Located.entry]
  have distinct := inv.batch_distinct phase
  refine ⟨agree, ?_, ?_, ?_, ?_, ?_⟩
  · exact (inv.owns.overwrite member _).perm moved
  · exact fun _ allocated => inv.addressed_write live allocated
  · intro entry inside
    obtain ⟨other, alive, rfl⟩ := inv.batch_live entry (by
      rw [phase]
      exact List.mem_cons_of_mem _ inside)
    exact ⟨other, TimerQueue.live_store.mpr
      (.inr ⟨distinct other.entry inside, alive⟩), rfl⟩
  · have flag := inv.calling
    rw [phase] at flag
    exact flag
  · have renumbered : Numbered (loop.queue.store located.address
        (located.timer.restart now)) loop.numCreated :=
      inv.numbered.renumber live rfl
    exact renumbered.congr rfl rfl

theorem Inv.discard (inv : loop.Inv)
    (phase : loop.phase = .resetting now (located.entry :: remaining))
    (live : loop.queue.Live located)
    (apart : loop.queue.Apart located.address) :
    Inv { loop with
      queue := loop.queue.freed located
      phase := .resetting now remaining } := by
  have moved : loop.owned.Perm (located.address :: (loop.pending ++
      (loop.queue.timers.items ++ remaining).map Entry.second)) := by
    have shape : (loop.queue.timers.items ++
        (located.entry :: remaining)).map Entry.second =
        loop.queue.timers.items.map Entry.second ++
          located.address :: remaining.map Entry.second := by
      rw [List.map_append]
      rfl
    rw [owned, phase, Phase.batch, shape, List.map_append,
      ← List.append_assoc, ← List.append_assoc]
    exact List.perm_middle
  obtain ⟨owns, addressed, batch⟩ := inv.delete live moved
  have distinct := inv.batch_distinct phase
  refine ⟨inv.agree.freed apart, owns, addressed, ?_, ?_,
    inv.numbered.freed live⟩
  · intro entry inside
    apply batch entry ?_ (distinct entry inside)
    rw [phase]
    exact List.mem_cons_of_mem _ inside
  · have flag := inv.calling
    rw [phase] at flag
    exact flag

/-- The invariant survives every step. -/
theorem TimerStep.inv {action : TimerAction} {next : TimerLoop}
    (step : TimerStep loop action next) (inv : loop.Inv) : next.Inv := by
  cases step with
  | create free bound => exact inv.create free bound
  | add calls live apart member => exact inv.add live apart member _
  | cancelHeld calls holds => exact inv.drop holds _
  | cancelCalling calls absent calling =>
      exact inv.congr rfl rfl rfl rfl rfl rfl rfl inv.calling
  | cancelIdle absent idle =>
      exact inv.congr rfl rfl rfl rfl rfl rfl rfl inv.calling
  | start idle starts => exact inv.start idle starts
  | run phase live =>
      have flag := inv.calling
      rw [phase] at flag
      exact inv.congr rfl rfl rfl rfl rfl rfl
        (by simp [phase, Phase.batch]) flag
  | stop phase =>
      exact inv.congr rfl rfl rfl rfl rfl rfl
        (by simp [phase, Phase.batch]) rfl
  | renew phase live apart repeats kept => exact inv.renew phase live apart
  | discard phase live apart gone => exact inv.discard phase live apart
  | finish phase =>
      have flag := inv.calling
      rw [phase] at flag
      rw [TimerQueue.rearmed_eq]
      exact inv.congr rfl rfl rfl rfl rfl rfl
        (by simp [phase, Phase.batch]) flag
  | setClock clock =>
      exact inv.congr rfl rfl rfl rfl rfl rfl rfl inv.calling

end Steps

/-- The timers of a loop: the two sets hold the same ones, every timer that was
added is in the queue or in the batch and not in both, none is deleted twice
or used once deleted, and none is lost. -/
structure Accounted (loop : TimerLoop) : Prop where
  sets_agree : ∀ located, loop.queue.Live located →
    (located.entry ∈ loop.queue.timers ↔
      located.id ∈ loop.queue.activeTimers)
  timers_live : ∀ entry ∈ loop.queue.timers,
    ∃ located, loop.queue.Live located ∧ located.entry = entry
  active_live : ∀ id ∈ loop.queue.activeTimers,
    ∃ located, loop.queue.Live located ∧ located.id = id
  batch_live : ∀ entry ∈ loop.phase.batch,
    ∃ located, loop.queue.Live located ∧ located.entry = entry
  held_once : ∀ located, loop.queue.Live located →
    located.address ∉ loop.pending →
    (located.entry ∈ loop.queue.timers ∧
      located.entry ∉ loop.phase.batch) ∨
    (located.entry ∉ loop.queue.timers ∧ loop.phase ≠ .idle ∧
      located.entry ∈ loop.phase.batch)
  deleted_once : (loop.queue.deleted.map TimerId.sequence).Nodup
  deleted_dead : ∀ id ∈ loop.queue.deleted, ∀ located,
    loop.queue.Live located → located.timer.sequence ≠ id.sequence
  none_lost : ∀ number, 0 < number → number ≤ loop.numCreated →
    (∃ located, loop.queue.Live located ∧
      located.timer.sequence = number) ∨
    number ∈ loop.queue.deleted.map TimerId.sequence

theorem Inv.held_once {loop : TimerLoop} (inv : loop.Inv)
    {located : Located} (live : loop.queue.Live located)
    (added : located.address ∉ loop.pending) :
    (located.entry ∈ loop.queue.timers ∧
      located.entry ∉ loop.phase.batch) ∨
    (located.entry ∉ loop.queue.timers ∧ loop.phase ≠ .idle ∧
      located.entry ∈ loop.phase.batch) := by
  have owned : located.address ∈ loop.owned := by
    rw [inv.owns.mem_iff, show loop.queue.heap located.address = _ from live]
    rfl
  rcases List.mem_append.mp owned with waiting | held
  · exact (added waiting).elim
  · obtain ⟨entry, member, place⟩ := List.mem_map.mp held
    have same : ∀ other, loop.queue.Live other → other.entry = entry →
        other = located := by
      intro other alive equal
      apply alive.unique live
      rw [← place, ← equal]
      rfl
    rcases List.mem_append.mp member with queued | expired
    · obtain ⟨other, alive, equal⟩ := inv.agree.entry_live entry queued
      rw [same other alive equal] at equal
      refine .inl ⟨equal ▸ queued, ?_⟩
      intro inBatch
      exact inv.apart_batch inBatch entry queued place
    · obtain ⟨other, alive, equal⟩ := inv.batch_live entry expired
      rw [same other alive equal] at equal
      refine .inr ⟨?_, ?_, equal ▸ expired⟩
      · intro queued
        exact inv.apart_batch expired located.entry queued place.symm
      · intro idle
        rw [idle] at expired
        cases expired

theorem Inv.accounted {loop : TimerLoop} (inv : loop.Inv) :
    loop.Accounted where
  sets_agree := fun _ live => inv.agree.entry_iff_active live
  timers_live := inv.agree.entry_live
  active_live := by
    intro id member
    obtain ⟨located, holds, same⟩ := (inv.agree.active_iff id).mp member
    exact ⟨located, holds.1, same⟩
  batch_live := inv.batch_live
  held_once := fun _ live added => inv.held_once live added
  deleted_once := inv.numbered.deleted_nodup
  deleted_dead := inv.numbered.deleted_dead
  none_lost := inv.numbered.accounted

end TimerLoop

section Runs

variable {mayMove : Timestamp → Timestamp → Prop} {clock : Timestamp}
variable {actions : List TimerAction} {loop : TimerLoop}

theorem TimerLoop.Inv.progress {action : TimerAction} (inv : loop.Inv)
    (enabled : loop.Enabled mayMove action) :
    ∃ next, loop.step action = .ok next ∧ next.Inv := by
  obtain ⟨next, result, step⟩ := inv.step enabled
  exact ⟨next, result, step.inv inv⟩

theorem run_inv
    (runs : (timerMachine mayMove).Run (.new clock) actions loop) :
    loop.Inv := by
  apply runs.progress_invariant TimerLoop.Inv (TimerLoop.new_inv clock)
  intro state action inv enabled
  exact inv.progress enabled

theorem timers_safe : (timerMachine mayMove).Safe (.new clock) := by
  apply Machine.safe_of_invariant TimerLoop.Inv (TimerLoop.new_inv clock)
  intro state action inv enabled
  exact inv.progress enabled

/-- What every step keeps in a loop that keeps the invariant holds after every
run from such a loop. -/
theorem TimerLoop.Inv.keeps {start : TimerLoop} (inv : start.Inv)
    (property : TimerLoop → Prop) (base : property start)
    (preserved : ∀ {loop action next}, TimerLoop.Inv loop →
      TimerLoop.TimerStep loop action next → property loop → property next)
    (runs : (timerMachine mayMove).Run start actions loop) :
    loop.Inv ∧ property loop := by
  apply Machine.Run.state_invariant
    (fun loop => loop.Inv ∧ property loop) ⟨inv, base⟩ ?_ runs
  intro state action next both enabled stepped
  obtain ⟨inv, holds⟩ := both
  have step := inv.stepped enabled stepped
  exact ⟨step.inv inv, preserved inv step holds⟩

theorem run_keeps {property : TimerLoop → Prop}
    (base : property (.new clock))
    (preserved : ∀ {loop action next}, TimerLoop.Inv loop →
      TimerLoop.TimerStep loop action next → property loop → property next)
    (runs : (timerMachine mayMove).Run (.new clock) actions loop) :
    property loop :=
  ((TimerLoop.new_inv clock).keeps property base preserved runs).2

/-- In every run of a timer queue, whatever callbacks add and cancel and however
addresses are reused, the timers are accounted for in every state, and no
assert fails and no deleted timer is used in any step that may follow. -/
theorem timers_accounted
    (runs : (timerMachine mayMove).Run (.new clock) actions loop) :
    loop.Accounted ∧
    ∀ action, loop.Enabled mayMove action →
      ∃ next, loop.step action = .ok next := by
  refine ⟨(run_inv runs).accounted, ?_⟩
  intro action enabled
  exact timers_safe actions loop action runs enabled

instance (mayMove : Timestamp → Timestamp → Prop) [DecidableRel mayMove]
    (loop : TimerLoop) (action : TimerAction) :
    Decidable ((timerMachine mayMove).enabled loop action) :=
  inferInstanceAs (Decidable (loop.Enabled mayMove action))

/-- A repeating timer cancels itself while it runs; the address is used again
for a timer that a late cancel does not mean. -/
theorem timers_accounted_reuse :
    ∃ loop, (timerMachine (· ≤ ·)).Run (.new 10)
        [.create 7 12 ⟨true, 5, by decide⟩, .addTimerInLoop 7, .setClock 20,
          .startCalling, .runCallback, .cancelInLoop ⟨7, 1⟩, .stopCalling,
          .resetOne, .finishReset, .create 7 30 ⟨false, 0, by decide⟩,
          .addTimerInLoop 7, .cancelInLoop ⟨7, 1⟩] loop ∧
      loop.Accounted ∧ loop.queue.deleted = [⟨7, 1⟩] ∧
      loop.queue.activeTimers.items = [⟨7, 2⟩] := by
  have found : ((timerMachine (· ≤ ·)).execute (.new 10)
      [.create 7 12 ⟨true, 5, by decide⟩, .addTimerInLoop 7, .setClock 20,
        .startCalling, .runCallback, .cancelInLoop ⟨7, 1⟩, .stopCalling,
        .resetOne, .finishReset, .create 7 30 ⟨false, 0, by decide⟩,
        .addTimerInLoop 7, .cancelInLoop ⟨7, 1⟩]).any
      (fun loop => loop.queue.deleted = [⟨7, 1⟩] ∧
        loop.queue.activeTimers.items = [⟨7, 2⟩]) = true := by
    decide +kernel
  obtain ⟨loop, runs, accepted⟩ := Machine.run_of_execute found
  obtain ⟨deleted, active⟩ := of_decide_eq_true accepted
  exact ⟨loop, runs, (timers_accounted runs).1, deleted, active⟩

end Runs

end Muduo
