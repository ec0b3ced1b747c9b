import Mathlib.Data.List.Nodup
import Muduo.Net.TimerQueue

/-!
# What the functions of the timer queue do

While the two sets of a queue agree with each other and with the allocated
timers, no function of the queue fails; each lemma gives the queue it leaves.
-/

namespace Muduo

open Library

/-- A timer with its next expiration. -/
def Located.restart (located : Located) (now : Timestamp) : Located :=
  { located with timer := located.timer.restart now }

namespace TimerQueue

/-- A timer that is allocated. -/
def Live (queue : TimerQueue) (located : Located) : Prop :=
  queue.heap located.address = some located.timer

/-- A timer that is allocated and waits in `timers_`. -/
def Holds (queue : TimerQueue) (located : Located) : Prop :=
  queue.Live located ∧ located.entry ∈ queue.timers

/-- No entry of `timers_` is about this address. -/
def Apart (queue : TimerQueue) (address : Nat) : Prop :=
  ∀ entry ∈ queue.timers, entry.second ≠ address

/-- The two sets hold the same timers, all of them allocated. -/
structure Agree (queue : TimerQueue) : Prop where
  entry_live : ∀ entry ∈ queue.timers,
    ∃ located, queue.Live located ∧ located.entry = entry
  active_iff : ∀ id, id ∈ queue.activeTimers ↔
    ∃ located, queue.Holds located ∧ located.id = id
  size_eq : queue.timers.size = queue.activeTimers.size

variable {queue : TimerQueue} {located other : Located}

theorem Live.unique (live : queue.Live located) (again : queue.Live other)
    (same : located.address = other.address) : located = other := by
  have timers : some located.timer = some other.timer := by
    rw [← live, ← again, same]
  obtain ⟨address, timer⟩ := located
  obtain ⟨_, _⟩ := other
  cases same
  cases timers
  rfl

theorem load_live (live : queue.Live located) :
    queue.load located.address = .ok located.timer := by
  simp only [load, show queue.heap located.address = _ from live]

theorem Live.eq_of_id (live : queue.Live located) (again : queue.Live other)
    (same : located.id = other.id) : located = other :=
  live.unique again (congrArg TimerId.timer same)

theorem Live.eq_of_entry (live : queue.Live located)
    (again : queue.Live other) (same : located.entry = other.entry) :
    located = other :=
  live.unique again (congrArg Entry.second same)

theorem Agree.new (clock : Timestamp) : (TimerQueue.new clock).Agree where
  entry_live := by
    intro entry member
    exact (OrderedSet.not_mem_empty entry member).elim
  active_iff := by
    intro id
    constructor
    · intro member
      exact (OrderedSet.not_mem_empty id member).elim
    · rintro ⟨located, holds, _⟩
      exact (OrderedSet.not_mem_empty _ holds.2).elim
  size_eq := rfl

theorem Agree.holds_of_entry (agree : queue.Agree) {entry : Entry}
    (member : entry ∈ queue.timers) :
    ∃ located, queue.Holds located ∧ located.entry = entry := by
  obtain ⟨located, live, rfl⟩ := agree.entry_live entry member
  exact ⟨located, ⟨live, member⟩, rfl⟩

theorem Agree.apart_free (agree : queue.Agree) {address : Nat}
    (free : queue.heap address = none) : queue.Apart address := by
  intro entry member same
  obtain ⟨located, live, rfl⟩ := agree.entry_live entry member
  have place : located.address = address := same
  rw [Live, place, free] at live
  cases live

theorem Agree.entry_iff_active (agree : queue.Agree)
    (live : queue.Live located) :
    located.entry ∈ queue.timers ↔ located.id ∈ queue.activeTimers := by
  rw [agree.active_iff]
  constructor
  · intro member
    exact ⟨located, ⟨live, member⟩, rfl⟩
  · rintro ⟨other, holds, same⟩
    rw [← holds.1.eq_of_id live same]
    exact holds.2

theorem Agree.congr (agree : queue.Agree) {next : TimerQueue}
    (timers : next.timers = queue.timers)
    (active : next.activeTimers = queue.activeTimers)
    (heap : ∀ entry ∈ queue.timers,
      next.heap entry.second = queue.heap entry.second) : next.Agree := by
  have holds : ∀ located, next.Holds located ↔ queue.Holds located := by
    intro located
    constructor
    · rintro ⟨live, member⟩
      rw [timers] at member
      exact ⟨(heap _ member).symm.trans live, member⟩
    · rintro ⟨live, member⟩
      exact ⟨(heap _ member).trans live, timers ▸ member⟩
  constructor
  · intro entry member
    rw [timers] at member
    obtain ⟨located, holding, rfl⟩ := agree.holds_of_entry member
    exact ⟨located, ((holds located).mpr holding).1, rfl⟩
  · intro id
    rw [active, agree.active_iff]
    simp only [holds]
  · rw [timers, active, agree.size_eq]

/-- The queue once a timer is in its sets. -/
def put (queue : TimerQueue) (located : Located) : TimerQueue :=
  (queue.setTimers (queue.timers.insert located.entry).1).setActiveTimers
    (queue.activeTimers.insert located.id).1

/-- A timer that expires before all of `timers_`. -/
def earliest (queue : TimerQueue) (located : Located) : Bool :=
  queue.timers.first?.all
    (fun entry => located.timer.expiration < entry.first)

theorem holds_put (live : queue.Live located) :
    (queue.put located).Holds other ↔
      other = located ∨ queue.Holds other := by
  constructor
  · rintro ⟨liveOther, member⟩
    rcases OrderedSet.mem_insert.mp member with same | old
    · exact .inl (liveOther.eq_of_entry live same)
    · exact .inr ⟨liveOther, old⟩
  · rintro (rfl | ⟨liveOther, member⟩)
    · exact ⟨live, OrderedSet.mem_insert.mpr (.inl rfl)⟩
    · exact ⟨liveOther, OrderedSet.mem_insert.mpr (.inr member)⟩

theorem Apart.not_mem (apart : queue.Apart located.address) :
    located.entry ∉ queue.timers :=
  fun member => apart located.entry member rfl

theorem Agree.insert (agree : queue.Agree) (live : queue.Live located)
    (apart : queue.Apart located.address) :
    queue.insert located.address =
        .ok (queue.earliest located, queue.put located) ∧
      (queue.put located).Agree := by
  have newEntry : located.entry ∉ queue.timers := apart.not_mem
  have newId : located.id ∉ queue.activeTimers := by
    rwa [← agree.entry_iff_active live]
  have sizes : (queue.timers.insert located.entry).1.size =
      (queue.activeTimers.insert located.id).1.size := by
    rw [OrderedSet.size_insert newEntry, OrderedSet.size_insert newId,
      agree.size_eq]
  constructor
  · have freshEntry := OrderedSet.insert_new.mpr newEntry
    have freshId := OrderedSet.insert_new.mpr newId
    simp only [Located.entry, Located.id] at freshEntry freshId sizes
    simp only [TimerQueue.insert, assertThat_bind, if_pos agree.size_eq,
      load_live live, ok_bind, if_pos freshEntry, if_pos freshId,
      if_pos sizes]
    rfl
  · constructor
    · intro entry member
      rcases OrderedSet.mem_insert.mp member with rfl | old
      · exact ⟨located, live, rfl⟩
      · exact agree.entry_live entry old
    · intro id
      simp only [holds_put live]
      constructor
      · intro member
        rcases OrderedSet.mem_insert.mp member with rfl | old
        · exact ⟨located, .inl rfl, rfl⟩
        · obtain ⟨other, holds, same⟩ := (agree.active_iff id).mp old
          exact ⟨other, .inr holds, same⟩
      · rintro ⟨other, rfl | holds, rfl⟩
        · exact OrderedSet.mem_insert.mpr (.inl rfl)
        · exact OrderedSet.mem_insert.mpr
            (.inr ((agree.active_iff _).mpr ⟨other, holds, rfl⟩))
    · exact sizes

/-- What `addTimerInLoop` leaves. -/
def added (queue : TimerQueue) (located : Located) : TimerQueue :=
  if queue.earliest located then
    (queue.put located).resetTimerfd located.timer.expiration
  else queue.put located

/-- Only the kernel timer may differ from a plain insertion. -/
theorem added_eq : queue.added located = { queue.put located with
    timerfd := (queue.added located).timerfd } := by
  unfold added
  split <;> rfl

theorem holds_added (live : queue.Live located) :
    (queue.added located).Holds other ↔
      other = located ∨ queue.Holds other := by
  rw [added_eq]
  exact holds_put live

theorem Agree.addTimerInLoop (agree : queue.Agree)
    (live : queue.Live located) (apart : queue.Apart located.address) :
    queue.addTimerInLoop located.address = .ok (queue.added located) ∧
      (queue.added located).Agree := by
  obtain ⟨inserted, agreePut⟩ := agree.insert live apart
  have livePut : (queue.put located).Live located := live
  by_cases changed : queue.earliest located = true
  · rw [added, if_pos changed]
    refine ⟨?_, agreePut.congr rfl rfl fun _ _ => rfl⟩
    simp only [TimerQueue.addTimerInLoop, inserted, ok_bind, armIf,
      if_pos changed, load_live livePut]
    rfl
  · rw [added, if_neg changed]
    refine ⟨?_, agreePut⟩
    simp only [TimerQueue.addTimerInLoop, inserted, ok_bind, armIf,
      if_neg changed]

/-- The queue once a timer is deleted. -/
def freed (queue : TimerQueue) (located : Located) : TimerQueue :=
  { queue with
    heap := write queue.heap located.address none
    deleted := queue.deleted ++ [located.id] }

/-- The queue without a timer that it held. -/
def drop (queue : TimerQueue) (located : Located) : TimerQueue :=
  ((queue.setTimers (queue.timers.erase located.entry).1).freed
    located).setActiveTimers (queue.activeTimers.erase located.id).1

theorem delete_live (live : queue.Live located) :
    queue.delete located.address = .ok (queue.freed located) := by
  simp only [delete, show queue.heap located.address = _ from live]
  rfl

theorem live_freed :
    (queue.freed located).Live other ↔
      other.address ≠ located.address ∧ queue.Live other := by
  by_cases same : other.address = located.address
  · simp [Live, freed, same]
  · simp [Live, freed, same, write_other same]

theorem live_drop :
    (queue.drop located).Live other ↔
      other.address ≠ located.address ∧ queue.Live other :=
  live_freed

theorem holds_drop (live : queue.Live located) :
    (queue.drop located).Holds other ↔
      other ≠ located ∧ queue.Holds other := by
  constructor
  · rintro ⟨liveOther, member⟩
    obtain ⟨different, liveBefore⟩ := live_drop.mp liveOther
    refine ⟨?_, liveBefore, (OrderedSet.mem_erase.mp member).2⟩
    rintro rfl
    exact different rfl
  · rintro ⟨different, liveOther, member⟩
    have apart : other.address ≠ located.address := fun same =>
      different (liveOther.unique live same)
    refine ⟨live_drop.mpr ⟨apart, liveOther⟩,
      OrderedSet.mem_erase.mpr ⟨?_, member⟩⟩
    intro same
    exact different (liveOther.eq_of_entry live same)

theorem Agree.drop (agree : queue.Agree) (holds : queue.Holds located) :
    (queue.drop located).Agree := by
  have active : located.id ∈ queue.activeTimers :=
    (agree.active_iff _).mpr ⟨located, holds, rfl⟩
  constructor
  · intro entry member
    obtain ⟨different, old⟩ := OrderedSet.mem_erase.mp member
    obtain ⟨other, holding, rfl⟩ := agree.holds_of_entry old
    have apart : other ≠ located := by
      rintro rfl
      exact different rfl
    exact ⟨other, ((holds_drop holds.1).mpr ⟨apart, holding⟩).1, rfl⟩
  · intro id
    simp only [holds_drop holds.1]
    constructor
    · intro member
      obtain ⟨different, old⟩ := OrderedSet.mem_erase.mp member
      obtain ⟨other, holding, rfl⟩ := (agree.active_iff id).mp old
      refine ⟨other, ⟨?_, holding⟩, rfl⟩
      rintro rfl
      exact different rfl
    · rintro ⟨other, ⟨different, holding⟩, rfl⟩
      refine OrderedSet.mem_erase.mpr ⟨?_,
        (agree.active_iff _).mpr ⟨other, holding, rfl⟩⟩
      intro same
      exact different (holding.1.eq_of_id holds.1 same)
  · calc
      (queue.drop located).timers.size = queue.timers.size - 1 :=
        OrderedSet.size_erase holds.2
      _ = queue.activeTimers.size - 1 := by rw [agree.size_eq]
      _ = (queue.drop located).activeTimers.size :=
        (OrderedSet.size_erase active).symm

theorem cancelActive_holds (holds : queue.Holds located) :
    queue.cancelActive located.id = .ok (queue.drop located) := by
  have erased := OrderedSet.erase_count holds.2
  have live : (queue.setTimers
      (queue.timers.erase located.entry).1).Live located := holds.1
  have deletes := delete_live live
  simp only [Located.entry] at erased deletes
  rw [TimerQueue.cancelActive, Located.id, load_live holds.1, ok_bind]
  simp only
  rw [assertThat_bind, if_pos erased, deletes]
  rfl

/-- A cancel that the batch has to remember. -/
def remember (queue : TimerQueue) (timer : ActiveTimer) : TimerQueue :=
  { queue with cancelingTimers := (queue.cancelingTimers.insert timer).1 }

/-- The three ways of a cancel: the queue holds the timer, a batch may hold it,
or there is nothing to do. -/
theorem Agree.cancelInLoop (agree : queue.Agree) (timerId : TimerId) :
    (∃ located, queue.Holds located ∧ located.id = timerId ∧
      queue.cancelInLoop timerId = .ok (queue.drop located)) ∨
    ((∀ located, queue.Holds located → located.id ≠ timerId) ∧
      ((queue.callingExpiredTimers = true ∧
          queue.cancelInLoop timerId = .ok (queue.remember timerId)) ∨
        (queue.callingExpiredTimers = false ∧
          queue.cancelInLoop timerId = .ok queue))) := by
  by_cases active : timerId ∈ queue.activeTimers
  · obtain ⟨located, holds, rfl⟩ := (agree.active_iff timerId).mp active
    refine .inl ⟨located, holds, rfl, ?_⟩
    simp only [TimerQueue.cancelInLoop, assertThat_bind,
      if_pos agree.size_eq, cancelBranch, if_pos active,
      cancelActive_holds holds, ok_bind, if_pos (agree.drop holds).size_eq]
    rfl
  · refine .inr ⟨?_, ?_⟩
    · rintro located holds rfl
      exact active ((agree.active_iff _).mpr ⟨located, holds, rfl⟩)
    · by_cases calling : queue.callingExpiredTimers = true
      · refine .inl ⟨calling, ?_⟩
        simp only [TimerQueue.cancelInLoop, assertThat_bind,
          if_pos agree.size_eq, cancelBranch, if_neg active, if_pos calling,
          ok_bind]
        rfl
      · refine .inr ⟨by simpa using calling, ?_⟩
        simp only [TimerQueue.cancelInLoop, assertThat_bind,
          if_pos agree.size_eq, cancelBranch, if_neg active, if_neg calling,
          ok_bind]
        rfl

/-- The loop of `getExpired` takes the timers of its entries, and no others,
out of `activeTimers_`. -/
theorem foldlM_deactivate {entries : List Entry}
    (active : ∀ entry ∈ entries, ∃ located, queue.Live located ∧
      located.entry = entry ∧ located.id ∈ queue.activeTimers)
    (distinct : (entries.map Entry.second).Nodup) :
    ∃ activeTimers,
      entries.foldlM deactivate queue =
        .ok (queue.setActiveTimers activeTimers) ∧
      (∀ id, id ∈ activeTimers ↔ id ∈ queue.activeTimers ∧
        ∀ located, queue.Live located → located.entry ∈ entries →
          located.id ≠ id) ∧
      activeTimers.size + entries.length = queue.activeTimers.size := by
  induction entries generalizing queue with
  | nil => exact ⟨queue.activeTimers, rfl, by simp, rfl⟩
  | cons entry entries induction =>
      obtain ⟨located, live, rfl, member⟩ :=
        active entry List.mem_cons_self
      obtain ⟨fresh, rest⟩ := List.nodup_cons.mp distinct
      have apart : ∀ other, queue.Live other → other.entry ∈ entries →
          other.id ≠ located.id := by
        intro other liveOther later same
        apply fresh
        have equal := liveOther.eq_of_id live same
        rw [equal] at later
        exact List.mem_map_of_mem later
      let shrunk := queue.setActiveTimers
        (queue.activeTimers.erase located.id).1
      have activeRest : ∀ entry ∈ entries, ∃ other, shrunk.Live other ∧
          other.entry = entry ∧ other.id ∈ shrunk.activeTimers := by
        intro entry later
        obtain ⟨other, liveOther, rfl, memberOther⟩ :=
          active entry (List.mem_cons_of_mem _ later)
        exact ⟨other, liveOther, rfl, OrderedSet.mem_erase.mpr
          ⟨apart other liveOther later, memberOther⟩⟩
      obtain ⟨activeTimers, folded, members, sizes⟩ :=
        induction activeRest rest
      have erased := OrderedSet.erase_count member
      have loads : queue.load located.entry.second = .ok located.timer :=
        load_live live
      have deactivates : queue.deactivate located.entry = .ok shrunk := by
        rw [deactivate, loads, ok_bind]
        simp only
        rw [assertThat_bind]
        exact if_pos erased
      refine ⟨activeTimers, ?_, ?_, ?_⟩
      · rw [List.foldlM_cons, deactivates, ok_bind, folded]
        rfl
      · intro id
        rw [members]
        constructor
        · rintro ⟨inside, others⟩
          obtain ⟨different, old⟩ := OrderedSet.mem_erase.mp inside
          refine ⟨old, ?_⟩
          intro other liveOther memberOther
          rcases List.mem_cons.mp memberOther with same | later
          · rw [liveOther.eq_of_entry live same]
            exact different.symm
          · exact others other liveOther later
        · rintro ⟨old, others⟩
          refine ⟨OrderedSet.mem_erase.mpr ⟨?_, old⟩, ?_⟩
          · exact (others located live List.mem_cons_self).symm
          · intro other liveOther later
            exact others other liveOther (List.mem_cons_of_mem _ later)
      · have positive : 0 < queue.activeTimers.size :=
          List.length_pos_of_mem member
        have shrinks : shrunk.activeTimers.size =
            queue.activeTimers.size - 1 := OrderedSet.size_erase member
        simp only [List.length_cons]
        omega

/-- The entries that have expired at a time. -/
def expired (queue : TimerQueue) (now : Timestamp) : List Entry :=
  queue.timers.items.filter (fun entry => entry.first ≤ now)

/-- Every entry is about an address that an object can have. -/
def Addressed (queue : TimerQueue) : Prop :=
  ∀ entry ∈ queue.timers, entry.second < UINTPTR_MAX

theorem lt_sentry {entry : Entry} (addressed : entry.second < UINTPTR_MAX)
    (now : Timestamp) : entry < sentry now ↔ entry.first ≤ now := by
  rw [Entry.lt_iff]
  constructor
  · rintro (before | ⟨same, _⟩)
    · exact le_of_lt before
    · exact le_of_eq same
  · intro before
    rcases lt_or_eq_of_le before with earlier | same
    · exact .inl earlier
    · exact .inr ⟨same, addressed⟩

theorem below_sentry (addressed : queue.Addressed) (now : Timestamp) :
    queue.timers.below (sentry now) = queue.expired now := by
  rw [OrderedSet.below_eq_filter]
  apply List.filter_congr
  intro entry member
  exact decide_eq_decide.mpr (lt_sentry (addressed entry member) now)

theorem mem_expired {entry : Entry} {now : Timestamp} :
    entry ∈ queue.expired now ↔ entry ∈ queue.timers ∧ entry.first ≤ now := by
  rw [expired, List.mem_filter, decide_eq_true_iff]
  rfl

/-- The queue without the timers that have expired. -/
structure WithoutExpired (queue rest : TimerQueue) (now : Timestamp) :
    Prop where
  agree : rest.Agree
  items : queue.timers.items = queue.expired now ++ rest.timers.items
  later : ∀ entry ∈ rest.timers, now < entry.first
  same : rest = { queue with
    timers := rest.timers, activeTimers := rest.activeTimers }

theorem Agree.distinct (agree : queue.Agree) :
    (queue.timers.items.map Entry.second).Nodup := by
  apply List.Nodup.map_on ?_ queue.timers.nodup
  intro entry member other memberOther same
  obtain ⟨located, live, rfl⟩ := agree.entry_live entry member
  obtain ⟨locatedOther, liveOther, rfl⟩ := agree.entry_live other memberOther
  rw [live.unique liveOther same]

theorem Agree.getExpired (agree : queue.Agree) (addressed : queue.Addressed)
    (now : Timestamp) :
    ∃ rest, queue.getExpired now = .ok (queue.expired now, rest) ∧
      queue.WithoutExpired rest now := by
  let later := queue.timers.fromBound (sentry now)
  have below := below_sentry addressed now
  have split : queue.timers.items = queue.expired now ++ later.items := by
    rw [← below]
    exact (queue.timers.below_append_fromBound _).symm
  have after : ∀ entry ∈ later, now < entry.first := by
    intro entry member
    obtain ⟨old, bound⟩ := OrderedSet.mem_fromBound.mp member
    have notBefore := not_lt.mpr bound
    rw [lt_sentry (addressed entry old)] at notBefore
    exact not_le.mp notBefore
  have firstLater :
      later.first?.all (fun entry => now < entry.first) = true := by
    cases first : later.first? with
    | none => rfl
    | some entry =>
        exact decide_eq_true (after entry (OrderedSet.mem_of_first? first))
  have active : ∀ entry ∈ queue.expired now, ∃ located,
      (queue.setTimers later).Live located ∧ located.entry = entry ∧
        located.id ∈ (queue.setTimers later).activeTimers := by
    intro entry member
    obtain ⟨located, holds, rfl⟩ :=
      agree.holds_of_entry (mem_expired.mp member).1
    exact ⟨located, holds.1, rfl,
      (agree.active_iff _).mpr ⟨located, holds, rfl⟩⟩
  have distinct : ((queue.expired now).map Entry.second).Nodup :=
    agree.distinct.sublist (List.filter_sublist.map _)
  obtain ⟨activeTimers, folded, members, sizes⟩ :=
    foldlM_deactivate active distinct
  have sizesAfter : later.size = activeTimers.size := by
    have total := queue.timers.size_fromBound (sentry now)
    rw [below] at total
    have agreed : queue.timers.size =
        (queue.setTimers later).activeTimers.size := agree.size_eq
    have left : later.size =
        (queue.timers.fromBound (sentry now)).size := rfl
    omega
  refine ⟨(queue.setTimers later).setActiveTimers activeTimers, ?_, ?_, split,
    after, rfl⟩
  · rw [TimerQueue.getExpired, assertThat_bind, if_pos agree.size_eq]
    simp only
    rw [assertThat_bind, if_pos firstLater, below, folded, ok_bind,
      assertThat_bind]
    exact if_pos sizesAfter
  · constructor
    · intro entry member
      exact agree.entry_live entry (OrderedSet.mem_fromBound.mp member).1
    · intro id
      rw [show id ∈ ((queue.setTimers later).setActiveTimers
        activeTimers).activeTimers ↔ _ from members id]
      constructor
      · rintro ⟨old, notExpired⟩
        obtain ⟨located, holds, rfl⟩ := (agree.active_iff id).mp old
        refine ⟨located, ⟨holds.1, ?_⟩, rfl⟩
        have member := holds.2
        rw [OrderedSet.mem_def, split] at member
        rcases List.mem_append.mp member with early | late
        · exact (notExpired located holds.1 early rfl).elim
        · exact late
      · rintro ⟨located, ⟨live, member⟩, rfl⟩
        have old := (OrderedSet.mem_fromBound.mp member).1
        refine ⟨(agree.active_iff _).mpr ⟨located, ⟨live, old⟩, rfl⟩, ?_⟩
        intro other liveOther early same
        have equal := Live.eq_of_id liveOther live same
        rw [equal] at early
        exact not_lt.mpr (mem_expired.mp early).2 (after _ member)
    · exact sizesAfter

/-- The queue when the callbacks of a batch begin. -/
structure StartsCalling (queue next : TimerQueue) (now : Timestamp) :
    Prop where
  agree : next.Agree
  items : queue.timers.items = queue.expired now ++ next.timers.items
  later : ∀ entry ∈ next.timers, now < entry.first
  same : next = { queue.readTimerfd with
    timers := next.timers, activeTimers := next.activeTimers
    callingExpiredTimers := true, cancelingTimers := .empty }

theorem readTimerfd_eq :
    queue.readTimerfd = { queue with
      timerfd := queue.readTimerfd.timerfd } := by
  unfold readTimerfd
  split <;> rfl

theorem Agree.readTimerfd (agree : queue.Agree) :
    queue.readTimerfd.Agree := by
  rw [readTimerfd_eq]
  exact agree.congr rfl rfl fun _ _ => rfl

theorem Agree.startCalling (agree : queue.Agree)
    (addressed : queue.Addressed) (now : Timestamp) :
    ∃ next, queue.startCalling now = .ok (queue.expired now, next) ∧
      queue.StartsCalling next now := by
  have timers : queue.readTimerfd.timers = queue.timers := by
    rw [readTimerfd_eq]
  have addressedRead : queue.readTimerfd.Addressed := by
    rw [Addressed, timers]
    exact addressed
  obtain ⟨rest, result, without⟩ :=
    agree.readTimerfd.getExpired addressedRead now
  have same : queue.readTimerfd.expired now = queue.expired now := by
    rw [expired, expired, timers]
  rw [same] at result
  refine ⟨{ rest with
    callingExpiredTimers := true, cancelingTimers := .empty }, ?_, ?_⟩
  · simp only [TimerQueue.startCalling, result, ok_bind]
    rfl
  · constructor
    · exact without.agree.congr rfl rfl fun _ _ => rfl
    · rw [← same, ← timers]
      exact without.items
    · exact without.later
    · rw [without.same]

theorem StartsCalling.holds_iff {next : TimerQueue} {now : Timestamp}
    (starts : queue.StartsCalling next now) :
    next.Holds located ↔
      queue.Holds located ∧ now < located.timer.expiration := by
  have live : next.Live located ↔ queue.Live located := by
    rw [starts.same, readTimerfd_eq]
    rfl
  constructor
  · rintro ⟨alive, member⟩
    have old : located.entry ∈ queue.timers.items := by
      rw [starts.items]
      exact List.mem_append_right _ member
    exact ⟨⟨live.mp alive, old⟩, starts.later _ member⟩
  · rintro ⟨⟨alive, member⟩, later⟩
    rw [OrderedSet.mem_def, starts.items, List.mem_append] at member
    rcases member with early | late
    · exact (not_lt.mpr (mem_expired.mp early).2 later).elim
    · exact ⟨live.mpr alive, late⟩

/-- The queue once a timer of the batch is in it again. -/
def renewed (queue : TimerQueue) (located : Located) (now : Timestamp) :
    TimerQueue :=
  (queue.store located.address (located.timer.restart now)).put
    (located.restart now)

theorem live_store {address : Nat} {timer : Timer} :
    (queue.store address timer).Live other ↔
      other = ⟨address, timer⟩ ∨
        (other.address ≠ address ∧ queue.Live other) := by
  obtain ⟨place, found⟩ := other
  by_cases same : place = address
  · subst same
    simp [Live, store, eq_comm]
  · simp [Live, store, same, write_other same]

theorem live_store_free {address : Nat} (free : queue.heap address = none)
    {timer : Timer} :
    (queue.store address timer).Live other ↔
      other = ⟨address, timer⟩ ∨ queue.Live other := by
  rw [live_store]
  constructor
  · intro alive
    rcases alive with new | ⟨_, old⟩
    · exact .inl new
    · exact .inr old
  · intro alive
    rcases alive with new | old
    · exact .inl new
    · refine .inr ⟨?_, old⟩
      intro same
      rw [Live, same, free] at old
      cases old

theorem holds_store {address : Nat} {timer : Timer}
    (apart : queue.Apart address) :
    (queue.store address timer).Holds other ↔ queue.Holds other := by
  constructor
  · rintro ⟨alive, member⟩
    rcases live_store.mp alive with rfl | ⟨_, old⟩
    · exact (apart _ member rfl).elim
    · exact ⟨old, member⟩
  · rintro ⟨alive, member⟩
    exact ⟨live_store.mpr (.inr ⟨apart _ member, alive⟩), member⟩

theorem holds_renewed {now : Timestamp}
    (apart : queue.Apart located.address) :
    (queue.renewed located now).Holds other ↔
      other = located.restart now ∨ queue.Holds other := by
  have stored : (queue.store located.address
      (located.timer.restart now)).Live (located.restart now) :=
    live_store.mpr (.inl rfl)
  exact (holds_put stored).trans (or_congr_right (holds_store apart))

theorem holds_freed (apart : queue.Apart located.address) :
    (queue.freed located).Holds other ↔ queue.Holds other := by
  constructor
  · rintro ⟨alive, member⟩
    exact ⟨(live_freed.mp alive).2, member⟩
  · rintro ⟨alive, member⟩
    exact ⟨live_freed.mpr ⟨apart _ member, alive⟩, member⟩

theorem Agree.store (agree : queue.Agree) {address : Nat}
    (apart : queue.Apart address) (timer : Timer) :
    (queue.store address timer).Agree := by
  refine agree.congr rfl rfl ?_
  intro entry member
  exact write_other (apart entry member)

theorem Agree.freed (agree : queue.Agree)
    (apart : queue.Apart located.address) : (queue.freed located).Agree := by
  refine agree.congr rfl rfl ?_
  intro entry member
  exact write_other (apart entry member)

/-- A repeating timer that was not cancelled is renewed, any other one is
deleted. -/
theorem Agree.resetOne (agree : queue.Agree) (live : queue.Live located)
    (apart : queue.Apart located.address) (now : Timestamp) :
    ((located.timer.repeats = true ∧ located.id ∉ queue.cancelingTimers) ∧
      queue.resetOne now located.entry = .ok (queue.renewed located now) ∧
      (queue.renewed located now).Agree) ∨
    (¬ (located.timer.repeats = true ∧ located.id ∉ queue.cancelingTimers) ∧
      queue.resetOne now located.entry = .ok (queue.freed located) ∧
      (queue.freed located).Agree) := by
  have loads : queue.load located.entry.second = .ok located.timer :=
    load_live live
  by_cases again : located.timer.repeats = true ∧
      located.id ∉ queue.cancelingTimers
  · have stored : (queue.store located.address
        (located.timer.restart now)).Live (located.restart now) :=
      live_store.mpr (.inl rfl)
    obtain ⟨inserted, agreed⟩ :=
      (agree.store apart (located.timer.restart now)).insert stored apart
    refine .inl ⟨again, ?_, agreed⟩
    have inserts : (queue.store located.entry.second
        (located.timer.restart now)).insert located.entry.second =
        .ok (_, queue.renewed located now) := inserted
    rw [TimerQueue.resetOne, loads, ok_bind]
    refine (if_pos again).trans ?_
    rw [inserts]
    rfl
  · refine .inr ⟨again, ?_, agree.freed apart⟩
    rw [TimerQueue.resetOne, loads, ok_bind]
    exact (if_neg again).trans (delete_live live)

/-- The queue at the end of `reset`. -/
def rearmed (queue : TimerQueue) : TimerQueue :=
  match queue.timers.first? with
  | some entry =>
      if entry.first.valid then queue.resetTimerfd entry.first else queue
  | none => queue

theorem rearmed_eq :
    queue.rearmed = { queue with timerfd := queue.rearmed.timerfd } := by
  unfold rearmed
  split
  · split <;> rfl
  · rfl

theorem Agree.finishReset (agree : queue.Agree) :
    queue.finishReset = .ok queue.rearmed ∧ queue.rearmed.Agree := by
  cases first : queue.timers.first? with
  | none =>
      simp only [TimerQueue.finishReset, nextExpire, rearmed, first]
      exact ⟨rfl, agree⟩
  | some entry =>
      obtain ⟨located, live, rfl⟩ :=
        agree.entry_live entry (OrderedSet.mem_of_first? first)
      have loads : queue.load located.entry.second = .ok located.timer :=
        load_live live
      have expires : queue.nextExpire = .ok located.entry.first := by
        simp only [nextExpire, first, loads]
        rfl
      simp only [TimerQueue.finishReset, rearmed, first, expires, ok_bind]
      split
      · exact ⟨rfl, agree.congr rfl rfl fun _ _ => rfl⟩
      · exact ⟨rfl, agree⟩

end TimerQueue

end Muduo
