import Mathlib.Order.MinMax
import Muduo.Net.TimerOwnership

/-!
# The kernel timer is armed for the queue

Between two handler invocations the kernel timer is armed early enough for the
first timer of the queue.  While a batch is under way that may fail, but only
as long as the first timer has a valid expiration, for which the end of `reset`
arms the kernel timer anyway.
-/

namespace Muduo

open Library

namespace TimerQueue

/-- The kernel timer is armed early enough for a timestamp. -/
def ArmedFor (queue : TimerQueue) (time : Timestamp) : Prop :=
  ∃ deadline, queue.timerfd.deadline = some deadline ∧
    deadline ≤ max time (queue.timerfd.setAt + 100)

variable {queue : TimerQueue}

theorem ArmedFor.mono {time later : Timestamp} (armed : queue.ArmedFor time)
    (ordered : time ≤ later) : queue.ArmedFor later := by
  obtain ⟨deadline, found, bound⟩ := armed
  exact ⟨deadline, found, bound.trans (max_le_max ordered (le_refl _))⟩

theorem armedFor_resetTimerfd (queue : TimerQueue) (time : Timestamp) :
    (queue.resetTimerfd time).ArmedFor time := by
  refine ⟨_, rfl, ?_⟩
  simp only [resetTimerfd, howMuchTimeFromNow]
  split
  · exact le_max_right _ _
  · rw [Int.add_comm, Int.sub_add_cancel]
    exact le_max_left _ _

/-- The first timer after an insertion expires with the new timer or with the
timer that was first. -/
theorem first?_put {located : Located} {entry : Entry}
    (first : (queue.put located).timers.first? = some entry) :
    (queue.earliest located = true ∧
      entry.first = located.timer.expiration) ∨
    ∃ head, queue.timers.first? = some head ∧ entry.first = head.first ∧
      queue.earliest located = false := by
  have member := OrderedSet.mem_of_first? first
  have inserted : located.entry ∈ (queue.put located).timers :=
    OrderedSet.mem_insert.mpr (.inl rfl)
  have below : entry.first ≤ located.timer.expiration :=
    Entry.first_le (OrderedSet.first?_le first inserted)
  cases head : queue.timers.first? with
  | none =>
      refine .inl ⟨by simp [earliest, head], ?_⟩
      rcases OrderedSet.mem_insert.mp member with rfl | old
      · rfl
      · exact (OrderedSet.first?_eq_none.mp head _ old).elim
  | some least =>
      have old : least ∈ (queue.put located).timers :=
        OrderedSet.mem_insert.mpr (.inr (OrderedSet.mem_of_first? head))
      have belowLeast : entry.first ≤ least.first :=
        Entry.first_le (OrderedSet.first?_le first old)
      by_cases before : located.timer.expiration < least.first
      · refine .inl ⟨by simp [earliest, head, before], ?_⟩
        rcases OrderedSet.mem_insert.mp member with rfl | older
        · rfl
        · have after := Entry.first_le (OrderedSet.first?_le head older)
          exact (not_lt.mpr (after.trans below) before).elim
      · refine .inr ⟨least, rfl, ?_, by simp [earliest, head, before]⟩
        rcases OrderedSet.mem_insert.mp member with rfl | older
        · exact le_antisymm belowLeast (not_lt.mp before)
        · exact le_antisymm belowLeast
            (Entry.first_le (OrderedSet.first?_le head older))

end TimerQueue

namespace Phase

/-- The time of the batch under way is positive. -/
def PositiveNow : Phase → Prop
  | idle => True
  | calling now _ _ => 0 < now
  | resetting now _ => 0 < now

end Phase

namespace TimerLoop

/-- The first timer is provided for: the kernel timer is armed for it, or a
batch is under way and the end of `reset` will arm it. -/
structure Armed (loop : TimerLoop) : Prop where
  clock_pos : 0 < loop.queue.clock
  now_pos : loop.phase.PositiveNow
  first_armed : ∀ entry, loop.queue.timers.first? = some entry →
    loop.queue.ArmedFor entry.first ∨
      (loop.phase ≠ .idle ∧ 0 < entry.first)

variable {loop : TimerLoop}

theorem Armed.of_subset (armed : loop.Armed) {next : TimerLoop}
    (clock : next.queue.clock = loop.queue.clock)
    (phase : next.phase = loop.phase)
    (timerfd : next.queue.timerfd = loop.queue.timerfd)
    (subset : ∀ entry ∈ next.queue.timers, entry ∈ loop.queue.timers) :
    next.Armed := by
  constructor
  · rw [clock]
    exact armed.clock_pos
  · rw [phase]
    exact armed.now_pos
  · intro entry first
    have member := subset entry (OrderedSet.mem_of_first? first)
    cases head : loop.queue.timers.first? with
    | none => exact (OrderedSet.first?_eq_none.mp head entry member).elim
    | some least =>
        have ordered := Entry.first_le (OrderedSet.first?_le head member)
        rcases armed.first_armed least head with ready | ⟨running, valid⟩
        · obtain ⟨deadline, found, bound⟩ := ready.mono ordered
          refine .inl ⟨deadline, ?_, ?_⟩
          · rw [timerfd]
            exact found
          · rw [timerfd]
            exact bound
        · refine .inr ⟨?_, valid.trans_le ordered⟩
          rw [phase]
          exact running

theorem Armed.add (armed : loop.Armed) (located : Located)
    (pending : List Nat) (history : List TimerEvent) :
    Armed { loop with
      queue := loop.queue.added located, pending, history } := by
  have clock : (loop.queue.added located).clock = loop.queue.clock := by
    rw [TimerQueue.added_eq]
    rfl
  refine ⟨clock ▸ armed.clock_pos, armed.now_pos, ?_⟩
  intro entry first
  have firstPut : (loop.queue.put located).timers.first? = some entry := by
    rw [← first]
    simp only
    rw [TimerQueue.added_eq]
  rcases TimerQueue.first?_put firstPut with
    ⟨earliest, same⟩ | ⟨head, firstHead, same, later⟩
  · left
    simp only [TimerQueue.added, if_pos earliest, same]
    exact TimerQueue.armedFor_resetTimerfd _ _
  · have unchanged : loop.queue.added located = loop.queue.put located := by
      rw [TimerQueue.added, later]
      rfl
    simp only [unchanged, same]
    exact armed.first_armed head firstHead

theorem Armed.start (armed : loop.Armed) {queue : TimerQueue}
    (starts : loop.queue.StartsCalling queue loop.queue.clock) :
    Armed { loop with
      queue
      phase := .calling loop.queue.clock []
        (loop.queue.expired loop.queue.clock) } := by
  have clock : queue.clock = loop.queue.clock := by
    rw [starts.same, TimerQueue.readTimerfd_eq]
  refine ⟨clock ▸ armed.clock_pos, armed.clock_pos, ?_⟩
  intro entry first
  have later := starts.later entry (OrderedSet.mem_of_first? first)
  exact .inr ⟨by simp, armed.clock_pos.trans later⟩

theorem Armed.renew (armed : loop.Armed) {now : Timestamp}
    {remaining : List Entry} {located : Located}
    (phase : loop.phase = .resetting now (located.entry :: remaining))
    (repeats : located.timer.repeats = true) :
    Armed { loop with
      queue := loop.queue.renewed located now
      phase := .resetting now remaining } := by
  have positive : 0 < now := by
    have under := armed.now_pos
    rw [phase] at under
    exact under
  have renewed : 0 < (located.restart now).timer.expiration := by
    have elapsed : (0 : Int) ≤ located.timer.interval.micros :=
      Int.natCast_nonneg _
    simp only [Located.restart, Timer.restart, if_pos repeats, addTime]
    exact lt_of_lt_of_le positive (Int.le_add_of_nonneg_right elapsed)
  refine ⟨armed.clock_pos, positive, ?_⟩
  intro entry first
  have firstPut : ((loop.queue.store located.address
      (located.timer.restart now)).put
        (located.restart now)).timers.first? = some entry := first
  rcases TimerQueue.first?_put firstPut with ⟨_, same⟩ | ⟨head, firstHead, same, _⟩
  · exact .inr ⟨by simp, same ▸ renewed⟩
  · rw [same]
    rcases armed.first_armed head firstHead with ready | ⟨_, valid⟩
    · exact .inl ready
    · exact .inr ⟨by simp, valid⟩

theorem Armed.finish (armed : loop.Armed) :
    Armed { loop with queue := loop.queue.rearmed, phase := .idle } := by
  have clock : loop.queue.rearmed.clock = loop.queue.clock := by
    rw [TimerQueue.rearmed_eq]
  have timers : loop.queue.rearmed.timers = loop.queue.timers := by
    rw [TimerQueue.rearmed_eq]
  refine ⟨clock ▸ armed.clock_pos, trivial, ?_⟩
  intro entry first
  rw [timers] at first
  left
  simp only [TimerQueue.rearmed, first]
  split
  · exact TimerQueue.armedFor_resetTimerfd _ _
  · next invalid =>
      rcases armed.first_armed entry first with ready | ⟨_, valid⟩
      · exact ready
      · exact (invalid (decide_eq_true valid)).elim

/-- Arming survives every step, if the clock does not go back. -/
theorem TimerStep.armed {action : TimerAction} {next : TimerLoop}
    (step : TimerStep loop action next) (armed : loop.Armed)
    (advances : ∀ clock, action = .setClock clock →
      loop.queue.clock ≤ clock) : next.Armed := by
  cases step with
  | create free bound => exact armed.of_subset rfl rfl rfl fun _ => id
  | add calls live apart member => exact armed.add _ _ _
  | cancelHeld calls holds =>
      exact armed.of_subset rfl rfl rfl fun _ member =>
        (OrderedSet.mem_erase.mp member).2
  | cancelCalling calls absent calling =>
      exact armed.of_subset rfl rfl rfl fun _ => id
  | cancelIdle absent idle => exact armed.of_subset rfl rfl rfl fun _ => id
  | start idle starts => exact armed.start starts
  | run phase live =>
      obtain ⟨clock, now, first⟩ := armed
      rw [phase] at now first
      exact ⟨clock, now, fun entry head => (first entry head).imp id
        fun valid => ⟨by simp, valid.2⟩⟩
  | stop phase =>
      obtain ⟨clock, now, first⟩ := armed
      rw [phase] at now first
      exact ⟨clock, now, fun entry head => (first entry head).imp id
        fun valid => ⟨by simp, valid.2⟩⟩
  | renew phase live apart repeats kept => exact armed.renew phase repeats
  | discard phase live apart gone =>
      obtain ⟨clock, now, first⟩ := armed
      rw [phase] at now first
      exact ⟨clock, now, fun entry head => (first entry head).imp id
        fun valid => ⟨by simp, valid.2⟩⟩
  | finish phase => exact armed.finish
  | setClock clock =>
      have later := advances clock rfl
      exact ⟨armed.clock_pos.trans_le later, armed.now_pos,
        armed.first_armed⟩

end TimerLoop

/-- Between two handler invocations, a queue that is not empty has its kernel
timer armed, for a deadline no later than its first timer or 100 microseconds
after the last arming; the deadline lies ahead or has passed unread. -/
theorem timerfd_armed {clock : Timestamp} (positive : 0 < clock)
    {actions : List TimerAction} {loop : TimerLoop}
    (runs : (timerMachine (· ≤ ·)).Run (.new clock) actions loop)
    (idle : loop.phase = .idle) {entry : Entry}
    (first : loop.queue.timers.first? = some entry) :
    ∃ deadline, loop.queue.timerfd.deadline = some deadline ∧
      deadline ≤ max entry.first (loop.queue.timerfd.setAt + 100) ∧
      (loop.queue.readable = true ∨ loop.queue.clock < deadline) := by
  have kept : loop.Inv ∧ loop.Armed := by
    apply Machine.Run.state_invariant
      (fun loop => loop.Inv ∧ loop.Armed) ?_ ?_ runs
    · refine ⟨TimerLoop.new_inv clock, positive, trivial, ?_⟩
      intro entry first
      cases first
    · rintro state action next ⟨inv, armed⟩ enabled stepped
      have step := inv.stepped enabled stepped
      refine ⟨step.inv inv, step.armed armed ?_⟩
      intro clock setting
      rw [setting] at enabled
      exact enabled
  rcases kept.2.first_armed entry first with
    ⟨deadline, found, bound⟩ | ⟨running, _⟩
  · refine ⟨deadline, found, bound, ?_⟩
    by_cases passed : deadline ≤ loop.queue.clock
    · exact .inl (by simp [TimerQueue.readable, found, passed])
    · exact .inr (not_le.mp passed)
  · exact (running idle).elim

/-- A callback adds a timer that expired long ago: `reset` does not arm for it,
but adding it did. -/
theorem timerfd_armed_past :
    ∃ loop, (timerMachine (· ≤ ·)).Run (.new 10)
        [.create 7 12 ⟨true, 5, by decide⟩, .addTimerInLoop 7, .setClock 20,
          .startCalling, .runCallback, .create 8 (-3) ⟨false, 0, by decide⟩,
          .addTimerInLoop 8, .setClock 30, .stopCalling, .resetOne,
          .finishReset] loop ∧
      loop.queue.timers.first? = some ⟨-3, 8⟩ ∧
      ∃ deadline, loop.queue.timerfd.deadline = some deadline ∧
        deadline ≤ max (-3) (loop.queue.timerfd.setAt + 100) ∧
        (loop.queue.readable = true ∨ loop.queue.clock < deadline) := by
  have found : ((timerMachine (· ≤ ·)).execute (.new 10)
      [.create 7 12 ⟨true, 5, by decide⟩, .addTimerInLoop 7, .setClock 20,
        .startCalling, .runCallback, .create 8 (-3) ⟨false, 0, by decide⟩,
        .addTimerInLoop 8, .setClock 30, .stopCalling, .resetOne,
        .finishReset]).any
      (fun loop => loop.queue.timers.first? = some ⟨-3, 8⟩ ∧
        loop.phase = .idle) = true := by
    decide +kernel
  obtain ⟨loop, runs, accepted⟩ := Machine.run_of_execute found
  obtain ⟨first, idle⟩ := of_decide_eq_true accepted
  exact ⟨loop, runs, first, timerfd_armed (by decide) runs idle first⟩

end Muduo
