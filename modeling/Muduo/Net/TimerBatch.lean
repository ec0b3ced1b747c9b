import Muduo.Library.Trace
import Muduo.Net.TimerOwnership

/-!
# One invocation of `handleRead`

`During` relates the loop in the middle of an invocation to the loop before it
and to what has happened since; every step keeps it.  At the end it says which
callbacks ran and what the queue holds.
-/

namespace Muduo

open Library

namespace TimerEvent

def ran? : TimerEvent → Option Located
  | ran located _ => some located
  | _ => none

end TimerEvent

/-- The timers whose callbacks ran, in order. -/
def ranOf (history : List TimerEvent) : List Located :=
  history.filterMap TimerEvent.ran?

theorem ranOf_concat_ran (history : List TimerEvent) (located : Located)
    (now : Timestamp) :
    ranOf (history ++ [.ran located now]) = ranOf history ++ [located] := by
  simp [ranOf, TimerEvent.ran?]

namespace Phase

/-- The time of the batch under way. -/
def At (now : Timestamp) : Phase → Prop
  | idle => False
  | calling time _ _ => time = now
  | resetting time _ => time = now

/-- The entries of the batch whose callbacks have still to run. -/
def unrun : Phase → List Entry
  | idle => []
  | calling _ _ remaining => remaining
  | resetting _ _ => []

end Phase

/-- A timer that was added and not cancelled since. -/
def Added (events : List TimerEvent) (located : Located) : Prop :=
  InForce events (.added located) (.cancelled located.id)

section Added

variable {events : List TimerEvent} {located other : Located}

theorem added_concat_added :
    Added (events ++ [.added located]) other ↔
      other = located ∨ Added events other := by
  simp [Added, inForce_concat, eq_comm]

theorem added_concat_cancelled {id : TimerId} :
    Added (events ++ [.cancelled id]) other ↔
      Added events other ∧ other.id ≠ id := by
  simp [Added, inForce_concat, eq_comm]

theorem added_concat_ran {now : Timestamp} :
    Added (events ++ [.ran located now]) other ↔ Added events other := by
  apply inForce_concat_other
  · simp
  · simp

end Added

namespace TimerLoop

/-- A timer that an invocation finds not yet expired, and that is not
cancelled. -/
def Waits (before : TimerLoop) (events : List TimerEvent)
    (located : Located) : Prop :=
  before.queue.Holds located ∧
    before.queue.clock < located.timer.expiration ∧
    .cancelled located.id ∉ events

/-- A repeating timer that is not cancelled. -/
def Renews (before : TimerLoop) (events : List TimerEvent)
    (located : Located) : Prop :=
  before.queue.Holds located ∧ located.timer.repeats = true ∧
    .cancelled located.id ∉ events

/-- What an invocation of `handleRead` has done, where `events` are what its
callbacks did and the queue reads the time once, before them. -/
structure Handled (before after : TimerLoop) (events : List TimerEvent) :
    Prop where
  history_eq : after.history = before.history ++ events
  ran_iff : ∀ located, located ∈ ranOf events ↔
    before.queue.Holds located ∧
      located.timer.expiration ≤ before.queue.clock
  ran_nodup : (ranOf events).Nodup
  ran_sorted : (ranOf events).Pairwise fun located other =>
    located.timer.expiration ≤ other.timer.expiration
  holds_iff : ∀ located, after.queue.Holds located ↔
    before.Waits events located ∨ Added events located ∨
      ∃ old, before.Renews events old ∧
        old.timer.expiration ≤ before.queue.clock ∧
        located = { address := old.address, timer := { old.timer with
          expiration := addTime before.queue.clock old.timer.interval } }

/-- What the queue holds during an invocation, `finished` being the entries that
`reset` is done with. -/
def Remains (before : TimerLoop) (events : List TimerEvent)
    (finished : List Entry) (located : Located) : Prop :=
  before.Waits events located ∨ Added events located ∨
    ∃ old, before.Renews events old ∧ old.entry ∈ finished ∧
      located = old.restart before.queue.clock

/-- An invocation under way: what happened since it began, and the entries that
`reset` is done with. -/
structure During (before loop : TimerLoop) (events : List TimerEvent)
    (finished : List Entry) : Prop where
  history_eq : loop.history = before.history ++ events
  batch_eq : finished ++ loop.phase.batch =
    before.queue.expired before.queue.clock
  at_clock : loop.phase.At before.queue.clock
  ran_eq : (ranOf events).map Located.entry ++ loop.phase.unrun =
    before.queue.expired before.queue.clock
  finished_nil : loop.phase.isCalling = true → finished = []
  ran_held : ∀ located ∈ ranOf events, before.queue.Holds located
  batch_kept : ∀ located, before.queue.Holds located →
    located.entry ∈ loop.phase.batch → loop.queue.Live located
  canceling_iff : ∀ located, before.queue.Holds located →
    located.timer.expiration ≤ before.queue.clock →
    (located.id ∈ loop.queue.cancelingTimers ↔
      .cancelled located.id ∈ events)
  holds_iff : ∀ located, loop.queue.Holds located ↔
    before.Remains events finished located

variable {before loop : TimerLoop} {events : List TimerEvent}
  {finished : List Entry}

theorem During.held (during : During before loop events finished)
    (inv : before.Inv) {entry : Entry} (member : entry ∈ loop.phase.batch) :
    ∃ located, before.queue.Holds located ∧ located.entry = entry ∧
      located.timer.expiration ≤ before.queue.clock ∧
      loop.queue.Live located := by
  have expired : entry ∈ before.queue.expired before.queue.clock := by
    rw [← during.batch_eq]
    exact List.mem_append_right _ member
  obtain ⟨held, due⟩ := TimerQueue.mem_expired.mp expired
  obtain ⟨located, holds, rfl⟩ := inv.agree.holds_of_entry held
  exact ⟨located, holds, rfl, due, during.batch_kept located holds member⟩

theorem During.held_of_live (during : During before loop events finished)
    (inv : before.Inv) {located : Located} (live : loop.queue.Live located)
    (member : located.entry ∈ loop.phase.batch) :
    before.queue.Holds located ∧
      located.timer.expiration ≤ before.queue.clock := by
  obtain ⟨other, holds, same, due, alive⟩ := during.held inv member
  have equal : other = located := alive.eq_of_entry live same
  rw [← equal]
  exact ⟨holds, due⟩

theorem during_start {queue : TimerQueue}
    (starts : before.queue.StartsCalling queue before.queue.clock) :
    During before { before with
      queue
      phase := .calling before.queue.clock []
        (before.queue.expired before.queue.clock) } [] [] where
  history_eq := (List.append_nil _).symm
  batch_eq := rfl
  at_clock := rfl
  ran_eq := rfl
  finished_nil _ := rfl
  ran_held := by
    intro located member
    cases member
  batch_kept := by
    intro located holds _
    have heap : queue.heap = before.queue.heap := by
      rw [starts.same, TimerQueue.readTimerfd_eq]
    exact (congrFun heap _).trans holds.1
  canceling_iff := by
    intro located _ _
    have canceling : queue.cancelingTimers = .empty := by
      rw [starts.same]
    rw [canceling]
    exact iff_of_false (OrderedSet.not_mem_empty _) List.not_mem_nil
  holds_iff := by
    intro located
    rw [starts.holds_iff]
    constructor
    · intro both
      obtain ⟨holds, later⟩ := both
      exact .inl ⟨holds, later, List.not_mem_nil⟩
    · intro kept
      rcases kept with waits | added | ⟨old, _, done, _⟩
      · exact ⟨waits.1, waits.2.1⟩
      · exact (not_inForce_nil _ _ added).elim
      · cases done

theorem waits_concat {event : TimerEvent} {located : Located} :
    before.Waits (events ++ [event]) located ↔
      before.Waits events located ∧ event ≠ .cancelled located.id := by
  simp only [Waits, List.mem_append, List.mem_singleton, not_or, and_assoc,
    ne_comm, ne_eq]

theorem renews_concat {event : TimerEvent} {located : Located} :
    before.Renews (events ++ [event]) located ↔
      before.Renews events located ∧ event ≠ .cancelled located.id := by
  simp only [Renews, List.mem_append, List.mem_singleton, not_or, and_assoc,
    ne_comm, ne_eq]

theorem remains_ran {located : Located} {now : Timestamp} {other : Located} :
    before.Remains (events ++ [.ran located now]) finished other ↔
      before.Remains events finished other := by
  simp only [Remains, waits_concat, renews_concat, added_concat_ran, ne_eq,
    reduceCtorEq, not_false_eq_true, and_true]

theorem remains_added {located other : Located} :
    before.Remains (events ++ [.added located]) finished other ↔
      other = located ∨ before.Remains events finished other := by
  simp only [Remains, waits_concat, renews_concat, added_concat_added, ne_eq,
    reduceCtorEq, not_false_eq_true, and_true, or_assoc]
  exact or_left_comm

/-- A cancel takes out the timer that it means, as long as nothing is renewed. -/
theorem remains_cancelled {id : TimerId} {other : Located} :
    before.Remains (events ++ [.cancelled id]) [] other ↔
      before.Remains events [] other ∧ other.id ≠ id := by
  simp only [Remains, waits_concat, added_concat_cancelled, List.not_mem_nil,
    false_and, and_false, exists_false, or_false, or_and_right, ne_eq,
    TimerEvent.cancelled.injEq, eq_comm]

theorem remains_concat {located other : Located}
    (unique : ∀ old, before.queue.Holds old → old.entry = located.entry →
      old = located) :
    before.Remains events (finished ++ [located.entry]) other ↔
      (before.Renews events located ∧
        other = located.restart before.queue.clock) ∨
      before.Remains events finished other := by
  constructor
  · intro remains
    rcases remains with waits | added | ⟨old, renewsOld, done, same⟩
    · exact .inr (.inl waits)
    · exact .inr (.inr (.inl added))
    · rcases List.mem_append.mp done with early | late
      · exact .inr (.inr (.inr ⟨old, renewsOld, early, same⟩))
      · obtain rfl := unique old renewsOld.1 (List.mem_singleton.mp late)
        exact .inl ⟨renewsOld, same⟩
  · intro remains
    rcases remains with
      ⟨renews, renewed⟩ | waits | added | ⟨old, renewsOld, done, same⟩
    · exact .inr (.inr ⟨located, renews,
        List.mem_append_right _ (List.mem_singleton.mpr rfl), renewed⟩)
    · exact .inl waits
    · exact .inr (.inl added)
    · exact .inr (.inr ⟨old, renewsOld, List.mem_append_left _ done, same⟩)

theorem During.congr (during : During before loop events finished)
    {next : TimerLoop} (history : next.history = loop.history)
    (phase : next.phase = loop.phase)
    (canceling : next.queue.cancelingTimers = loop.queue.cancelingTimers)
    (live : ∀ located, loop.queue.Live located → next.queue.Live located)
    (holds : ∀ located,
      next.queue.Holds located ↔ loop.queue.Holds located) :
    During before next events finished where
  history_eq := by
    rw [history]
    exact during.history_eq
  batch_eq := by
    rw [phase]
    exact during.batch_eq
  at_clock := by
    rw [phase]
    exact during.at_clock
  ran_eq := by
    rw [phase]
    exact during.ran_eq
  finished_nil := by
    rw [phase]
    exact during.finished_nil
  ran_held := during.ran_held
  batch_kept := by
    rw [phase]
    intro located holding member
    exact live located (during.batch_kept located holding member)
  canceling_iff := by
    rw [canceling]
    exact during.canceling_iff
  holds_iff := by
    intro located
    rw [holds]
    exact during.holds_iff located

theorem During.record (during : During before loop events finished)
    {next : TimerLoop} {event : TimerEvent} (quiet : event.ran? = none)
    (history : next.history = loop.history ++ [event])
    (phase : next.phase = loop.phase)
    (live : ∀ located, loop.queue.Live located →
      located.entry ∈ loop.phase.batch → next.queue.Live located)
    (canceling : ∀ located, before.queue.Holds located →
      located.timer.expiration ≤ before.queue.clock →
      (located.id ∈ next.queue.cancelingTimers ↔
        located.id ∈ loop.queue.cancelingTimers ∨
          .cancelled located.id = event))
    (holds : ∀ located, next.queue.Holds located ↔
      before.Remains (events ++ [event]) finished located) :
    During before next (events ++ [event]) finished := by
  have ran : ranOf (events ++ [event]) = ranOf events := by
    simp [ranOf, quiet]
  refine ⟨?_, ?_, ?_, ?_, ?_, ?_, ?_, ?_, holds⟩
  · rw [history, during.history_eq, List.append_assoc]
  · rw [phase]
    exact during.batch_eq
  · rw [phase]
    exact during.at_clock
  · rw [phase, ran]
    exact during.ran_eq
  · rw [phase]
    exact during.finished_nil
  · rw [ran]
    exact during.ran_held
  · rw [phase]
    intro located holding member
    exact live located (during.batch_kept located holding member) member
  · intro located holding due
    rw [canceling located holding due,
      during.canceling_iff located holding due, List.mem_append,
      List.mem_singleton]

theorem During.add (during : During before loop events finished)
    {located : Located} (live : loop.queue.Live located)
    (pending : List Nat) :
    During before { loop with
      queue := loop.queue.added located
      pending
      history := loop.history ++ [.added located] }
      (events ++ [.added located]) finished := by
  refine during.record rfl rfl rfl ?_ ?_ ?_
  · intro other alive _
    rw [TimerQueue.added_eq]
    exact alive
  · intro other _ _
    rw [TimerQueue.added_eq]
    simp [TimerQueue.put, TimerQueue.setTimers, TimerQueue.setActiveTimers]
  · intro other
    rw [TimerQueue.holds_added live, remains_added, during.holds_iff]

/-- A callback only cancels while `reset` has not begun. -/
theorem During.finished_of_calls
    (during : During before loop events finished)
    (calls : loop.phase.CallsQueue) :
    loop.phase.isCalling = true ∧ finished = [] := by
  have clock := during.at_clock
  have done := during.finished_nil
  cases phase : loop.phase with
  | idle =>
      rw [phase] at clock
      cases clock
  | calling now ran remaining =>
      rw [phase] at done
      exact ⟨rfl, done rfl⟩
  | resetting now remaining =>
      rw [phase] at calls
      cases calls

theorem During.cancelHeld (during : During before loop events finished)
    (inv : loop.Inv) {located : Located}
    (calls : loop.phase.CallsQueue) (holds : loop.queue.Holds located) :
    During before { loop with
      queue := loop.queue.drop located
      history := loop.history ++ [.cancelled located.id] }
      (events ++ [.cancelled located.id]) finished := by
  obtain ⟨_, rfl⟩ := during.finished_of_calls calls
  have outside : ∀ other, loop.queue.Live other →
      other.entry ∈ loop.phase.batch → other.address ≠ located.address := by
    intro other alive member same
    rw [alive.unique holds.1 same] at member
    exact inv.apart_batch member located.entry holds.2 rfl
  refine during.record rfl rfl rfl ?_ ?_ ?_
  · intro other alive member
    exact TimerQueue.live_drop.mpr ⟨outside other alive member, alive⟩
  · intro other holding due
    have member : other.entry ∈ loop.phase.batch := by
      have batch := during.batch_eq
      rw [List.nil_append] at batch
      rw [batch]
      exact TimerQueue.mem_expired.mpr ⟨holding.2, due⟩
    have alive := during.batch_kept other holding member
    have different : TimerEvent.cancelled other.id ≠
        .cancelled located.id := by
      intro same
      exact outside other alive member
        (congrArg TimerId.timer (TimerEvent.cancelled.inj same))
    exact (or_iff_left different).symm
  · intro other
    rw [TimerQueue.holds_drop holds.1, remains_cancelled,
      ← during.holds_iff other, and_comm]
    apply and_congr_right
    intro holding
    apply not_congr
    constructor
    · intro same
      rw [same]
    · intro same
      exact holding.1.eq_of_id holds.1 same

theorem During.cancelCalling (during : During before loop events finished)
    {timerId : TimerId} (calls : loop.phase.CallsQueue)
    (absent : ∀ located, loop.queue.Holds located → located.id ≠ timerId) :
    During before { loop with
      queue := loop.queue.remember timerId
      history := loop.history ++ [.cancelled timerId] }
      (events ++ [.cancelled timerId]) finished := by
  obtain ⟨_, rfl⟩ := during.finished_of_calls calls
  refine during.record rfl rfl rfl ?_ ?_ ?_
  · intro other alive _
    exact alive
  · intro other _ _
    rw [TimerEvent.cancelled.injEq]
    exact OrderedSet.mem_insert.trans or_comm
  · intro other
    rw [remains_cancelled, ← during.holds_iff other]
    constructor
    · intro holding
      exact ⟨holding, absent other holding⟩
    · intro both
      obtain ⟨holding, _⟩ := both
      exact holding

theorem During.run (during : During before loop events finished)
    (invBefore : before.Inv) {now : Timestamp} {ran remaining : List Entry}
    {located : Located}
    (phase : loop.phase = .calling now ran (located.entry :: remaining))
    (live : loop.queue.Live located) :
    During before { loop with
      phase := .calling now (ran ++ [located.entry]) remaining
      history := loop.history ++ [.ran located now] }
      (events ++ [.ran located now]) finished := by
  have member : located.entry ∈ loop.phase.batch := by
    simp [phase, Phase.batch]
  obtain ⟨holding, _⟩ := during.held_of_live invBefore live member
  have batch : loop.phase.batch =
      (Phase.calling now (ran ++ [located.entry]) remaining).batch := by
    simp [phase, Phase.batch]
  obtain ⟨history, total, clock, order, none, held, kept, canceling, holds⟩ :=
    during
  rw [phase] at clock order none
  refine ⟨?_, ?_, clock, ?_, ?_, ?_, ?_, ?_, ?_⟩
  · rw [history, List.append_assoc]
  · rw [← batch]
    exact total
  · rw [ranOf_concat_ran, List.map_append, List.append_assoc]
    exact order
  · exact none
  · intro other inside
    rw [ranOf_concat_ran] at inside
    rcases List.mem_append.mp inside with early | late
    · exact held other early
    · rw [List.mem_singleton.mp late]
      exact holding
  · rw [← batch]
    exact kept
  · intro other holdingOther due
    rw [canceling other holdingOther due, List.mem_append,
      List.mem_singleton]
    simp
  · intro other
    rw [remains_ran]
    exact holds other

theorem During.stop (during : During before loop events finished)
    {now : Timestamp} {ran : List Entry}
    (phase : loop.phase = .calling now ran []) :
    During before { loop with
      queue := loop.queue.stopCalling, phase := .resetting now ran }
      events finished := by
  obtain ⟨history, total, clock, order, none, held, kept, canceling, holds⟩ :=
    during
  rw [phase] at total clock order kept
  rw [Phase.batch, List.append_nil] at total kept
  refine ⟨history, total, clock, order, ?_, held, kept, canceling, holds⟩
  intro calling
  cases calling

theorem During.reset (during : During before loop events finished)
    {now : Timestamp} {remaining : List Entry} {located : Located}
    (phase : loop.phase = .resetting now (located.entry :: remaining))
    {queue : TimerQueue}
    (canceling : queue.cancelingTimers = loop.queue.cancelingTimers)
    (live : ∀ other, other.address ≠ located.address →
      loop.queue.Live other → queue.Live other)
    (distinct : ∀ entry ∈ remaining, entry.second ≠ located.address)
    (holds : ∀ other, queue.Holds other ↔
      before.Remains events (finished ++ [located.entry]) other) :
    During before { loop with queue, phase := .resetting now remaining }
      events (finished ++ [located.entry]) := by
  obtain ⟨history, total, clock, order, none, held, kept, iff, _⟩ := during
  rw [phase] at total clock order kept
  refine ⟨history, ?_, clock, order, ?_, held, ?_, ?_, holds⟩
  · rw [List.append_assoc]
    exact total
  · intro calling
    cases calling
  · intro other holding member
    exact live other (distinct other.entry member)
      (kept other holding (List.mem_cons_of_mem _ member))
  · simp only
    rw [canceling]
    exact iff

theorem During.renew (during : During before loop events finished)
    (inv : loop.Inv) (invBefore : before.Inv) {now : Timestamp}
    {remaining : List Entry} {located : Located}
    (phase : loop.phase = .resetting now (located.entry :: remaining))
    (live : loop.queue.Live located)
    (apart : loop.queue.Apart located.address)
    (repeats : located.timer.repeats = true)
    (kept : located.id ∉ loop.queue.cancelingTimers) :
    During before { loop with
      queue := loop.queue.renewed located now
      phase := .resetting now remaining }
      events (finished ++ [located.entry]) := by
  have member : located.entry ∈ loop.phase.batch := by
    simp [phase, Phase.batch]
  obtain ⟨holding, due⟩ := during.held_of_live invBefore live member
  have clock := during.at_clock
  rw [phase] at clock
  obtain rfl : now = before.queue.clock := clock
  refine during.reset phase rfl ?_ (inv.batch_distinct phase) ?_
  · intro other different alive
    exact TimerQueue.live_store.mpr (.inr ⟨different, alive⟩)
  · intro other
    rw [during.canceling_iff located holding due] at kept
    have renews : before.Renews events located := ⟨holding, repeats, kept⟩
    rw [TimerQueue.holds_renewed apart, remains_concat
      (fun old holdingOld same => holdingOld.1.eq_of_entry holding.1 same),
      and_iff_right renews, during.holds_iff other]

theorem During.discard (during : During before loop events finished)
    (inv : loop.Inv) (invBefore : before.Inv) {now : Timestamp}
    {remaining : List Entry} {located : Located}
    (phase : loop.phase = .resetting now (located.entry :: remaining))
    (live : loop.queue.Live located)
    (apart : loop.queue.Apart located.address)
    (gone : ¬ (located.timer.repeats = true ∧
      located.id ∉ loop.queue.cancelingTimers)) :
    During before { loop with
      queue := loop.queue.freed located
      phase := .resetting now remaining }
      events (finished ++ [located.entry]) := by
  have member : located.entry ∈ loop.phase.batch := by
    simp [phase, Phase.batch]
  obtain ⟨holding, due⟩ := during.held_of_live invBefore live member
  refine during.reset phase rfl ?_ (inv.batch_distinct phase) ?_
  · intro other different alive
    exact TimerQueue.live_freed.mpr ⟨different, alive⟩
  · intro other
    rw [during.canceling_iff located holding due] at gone
    rw [TimerQueue.holds_freed apart, remains_concat
      (fun old holdingOld same => holdingOld.1.eq_of_entry holding.1 same),
      or_iff_right (fun renewed => gone renewed.1.2), during.holds_iff other]

/-- An invocation goes on until `finishReset`. -/
theorem TimerStep.during {action : TimerAction} {next : TimerLoop}
    (step : TimerStep loop action next) (inv : loop.Inv)
    (invBefore : before.Inv) (goes : action ≠ .finishReset)
    (under : ∃ events finished, During before loop events finished) :
    ∃ events finished, During before next events finished := by
  obtain ⟨events, finished, during⟩ := under
  cases step with
  | create free bound =>
      refine ⟨_, _, during.congr rfl rfl rfl ?_ ?_⟩
      · intro located live
        exact (TimerQueue.live_store_free free).mpr (.inr live)
      · intro located
        exact TimerQueue.holds_store (inv.agree.apart_free free)
  | add calls live apart member => exact ⟨_, _, during.add live _⟩
  | cancelHeld calls holds =>
      exact ⟨_, _, during.cancelHeld inv calls holds⟩
  | cancelCalling calls absent calling =>
      exact ⟨_, _, during.cancelCalling calls absent⟩
  | cancelIdle absent idle =>
      have clock := during.at_clock
      rw [idle] at clock
      cases clock
  | start idle starts =>
      have clock := during.at_clock
      rw [idle] at clock
      cases clock
  | run phase live => exact ⟨_, _, during.run invBefore phase live⟩
  | stop phase => exact ⟨_, _, during.stop phase⟩
  | renew phase live apart repeats kept =>
      exact ⟨_, _, during.renew inv invBefore phase live apart repeats kept⟩
  | discard phase live apart gone =>
      exact ⟨_, _, during.discard inv invBefore phase live apart gone⟩
  | finish phase => exact (goes rfl).elim
  | setClock clock =>
      exact ⟨_, _, during.congr rfl rfl rfl (fun _ => id) fun _ => .rfl⟩

theorem During.handled (during : During before loop events finished)
    {now : Timestamp}
    (phase : loop.phase = .resetting now []) :
    Handled before { loop with queue := loop.queue.rearmed, phase := .idle }
      events := by
  obtain ⟨history, total, _, order, _, held, _, _, holds⟩ := during
  rw [phase] at total order
  rw [Phase.batch, List.append_nil] at total
  rw [Phase.unrun, List.append_nil] at order
  have sorted := before.queue.timers.sorted.filter
    (fun entry => entry.first ≤ before.queue.clock)
  constructor
  · exact history
  · intro located
    constructor
    · intro ran
      have expired := List.mem_map_of_mem (f := Located.entry) ran
      rw [order] at expired
      exact ⟨held located ran, (TimerQueue.mem_expired.mp expired).2⟩
    · intro both
      obtain ⟨holding, due⟩ := both
      have expired : located.entry ∈
          before.queue.expired before.queue.clock :=
        TimerQueue.mem_expired.mpr ⟨holding.2, due⟩
      rw [← order] at expired
      obtain ⟨other, ran, same⟩ := List.mem_map.mp expired
      rw [(held other ran).1.eq_of_entry holding.1 same] at ran
      exact ran
  · apply List.Nodup.of_map Located.entry
    rw [order]
    exact before.queue.timers.nodup.filter _
  · have entries : ((ranOf events).map Located.entry).Pairwise (· < ·) := by
      rw [order]
      exact sorted
    apply (List.pairwise_map.mp entries).imp
    intro located other before
    exact Entry.first_le (le_of_lt before)
  · intro located
    have same : loop.queue.rearmed.Holds located ↔
        loop.queue.Holds located := by
      rw [TimerQueue.rearmed_eq]
      rfl
    simp only
    rw [same, holds located]
    apply or_congr_right
    apply or_congr_right
    constructor
    · intro both
      obtain ⟨old, renews, done, restarts⟩ := both
      rw [total] at done
      refine ⟨old, renews, (TimerQueue.mem_expired.mp done).2, ?_⟩
      rw [restarts, Located.restart, Timer.restart, if_pos renews.2.1]
    · intro both
      obtain ⟨old, renews, due, restarts⟩ := both
      refine ⟨old, renews, ?_, ?_⟩
      · rw [total]
        exact TimerQueue.mem_expired.mpr ⟨renews.1.2, due⟩
      · rw [restarts, Located.restart, Timer.restart, if_pos renews.2.1]

variable {mayMove : Timestamp → Timestamp → Prop}

/-- One invocation, from any loop that keeps the invariant. -/
theorem Inv.handleRead {after : TimerLoop} {actions : List TimerAction}
    (inv : before.Inv) (once : .finishReset ∉ actions)
    (runs : (timerMachine mayMove).Run before
      (.startCalling :: actions ++ [.finishReset]) after) :
    ∃ events, Handled before after events := by
  obtain ⟨last, first, final⟩ := runs.split
  obtain ⟨begun, enabled, stepped, rest⟩ := first.uncons
  obtain ⟨ended, enabledLast, steppedLast, nothing⟩ := final.uncons
  obtain rfl : after = ended := nothing.of_nil
  have step := inv.stepped enabled stepped
  have kept : last.Inv ∧ (.finishReset ∉ actions →
      ∃ events finished, During before last events finished) := by
    apply Machine.Run.invariant
      (fun actions loop => loop.Inv ∧ (.finishReset ∉ actions →
        ∃ events finished, During before loop events finished)) ?_ ?_ rest
    · refine ⟨step.inv inv, ?_⟩
      intro _
      cases step with
      | start idle starts => exact ⟨[], [], during_start starts⟩
    · intro actions loop action next _ both enabled stepped
      obtain ⟨inv', under⟩ := both
      have step := inv'.stepped enabled stepped
      refine ⟨step.inv inv', ?_⟩
      intro absent
      rw [List.mem_append, not_or, List.mem_singleton] at absent
      exact step.during inv' inv (fun same => absent.2 same.symm)
        (under absent.1)
  obtain ⟨events, finished, during⟩ := kept.2 once
  have finish := kept.1.stepped enabledLast steppedLast
  cases finish with
  | finish phase => exact ⟨events, during.handled phase⟩

end TimerLoop

end Muduo
