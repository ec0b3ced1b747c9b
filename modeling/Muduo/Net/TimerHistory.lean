import Muduo.Net.TimerBatch

/-!
# What a whole run does to each timer

The history of a loop is checked against the timers it has: a timer that ran
and does not repeat is spent, and one that was added and not cancelled is still
there unless it ran.
-/

namespace Muduo

open Library

namespace Phase

/-- The entries whose callbacks have still to run have expired. -/
def Due : Phase → Prop
  | idle => True
  | calling now _ remaining => ∀ entry ∈ remaining, entry.first ≤ now
  | resetting _ _ => True

end Phase

namespace TimerLoop

/-- A timer that no callback will run for again. -/
structure Spent (loop : TimerLoop) (located : Located) : Prop where
  not_pending : located.address ∉ loop.pending
  not_held : located.entry ∉ loop.queue.timers
  not_waiting : located.entry ∉ loop.phase.unrun

/-- No timer runs early, and one that does not repeat runs once. -/
structure RanOnce (loop : TimerLoop) : Prop where
  due : loop.phase.Due
  ran_due : ∀ located now, .ran located now ∈ loop.history →
    located.timer.expiration ≤ now
  ran_numbered : ∀ located ∈ ranOf loop.history,
    located.timer.sequence ≤ loop.numCreated
  ran_spent : ∀ located ∈ ranOf loop.history, ∀ other,
    loop.queue.Live other → other.id = located.id →
      other.timer.repeats = located.timer.repeats ∧
        (other.timer.repeats = false → loop.Spent other)
  ran_once : (ranOf loop.history).Pairwise fun located other =>
    located.id = other.id → located.timer.repeats = true

variable {loop : TimerLoop}

theorem ranOnce_new (clock : Timestamp) : (TimerLoop.new clock).RanOnce where
  due := trivial
  ran_due := by
    intro located now member
    cases member
  ran_numbered := by
    intro located member
    cases member
  ran_spent := by
    intro located member
    cases member
  ran_once := .nil

/-- No callback runs from one loop to the next. -/
def Quiet (loop next : TimerLoop) : Prop :=
  next.history = loop.history ∨
    ∃ event, event.ran? = none ∧ next.history = loop.history ++ [event]

theorem Quiet.ranOf_eq {next : TimerLoop} (quiet : Quiet loop next) :
    ranOf next.history = ranOf loop.history := by
  rcases quiet with same | ⟨event, silent, same⟩
  · rw [same]
  · simp [same, ranOf, silent]

theorem Quiet.ran_mem {next : TimerLoop} (quiet : Quiet loop next)
    {located : Located} {now : Timestamp} :
    .ran located now ∈ next.history ↔ .ran located now ∈ loop.history := by
  rcases quiet with same | ⟨event, silent, same⟩
  · rw [same]
  · rw [same, List.mem_append, List.mem_singleton]
    apply or_iff_left
    intro ran
    rw [← ran] at silent
    cases silent

theorem RanOnce.of_quiet (once : loop.RanOnce) {next : TimerLoop}
    (quiet : Quiet loop next) (due : next.phase.Due)
    (grows : loop.numCreated ≤ next.numCreated)
    (back : ∀ other, next.queue.Live other →
      other.timer.sequence ≤ loop.numCreated →
      ∃ old, loop.queue.Live old ∧ old.id = other.id ∧
        old.timer.repeats = other.timer.repeats ∧
        (other.timer.repeats = false → loop.Spent old → next.Spent other)) :
    next.RanOnce where
  due := due
  ran_due := by
    intro located now member
    exact once.ran_due located now (quiet.ran_mem.mp member)
  ran_numbered := by
    rw [quiet.ranOf_eq]
    intro located member
    exact (once.ran_numbered located member).trans grows
  ran_spent := by
    rw [quiet.ranOf_eq]
    intro located member other live same
    have number : other.timer.sequence = located.timer.sequence :=
      congrArg TimerId.sequence same
    obtain ⟨old, liveOld, sameOld, repeats, spent⟩ := back other live
      (number ▸ once.ran_numbered located member)
    obtain ⟨repeatsOld, spentOld⟩ :=
      once.ran_spent located member old liveOld (sameOld.trans same)
    rw [repeats] at repeatsOld spentOld
    exact ⟨repeatsOld, fun single => spent single (spentOld single)⟩
  ran_once := by
    rw [quiet.ranOf_eq]
    exact once.ran_once

theorem RanOnce.of_same (once : loop.RanOnce) {next : TimerLoop}
    (quiet : Quiet loop next) (due : next.phase.Due)
    (created : next.numCreated = loop.numCreated)
    (live : ∀ other, next.queue.Live other → loop.queue.Live other)
    (pending : next.pending = loop.pending)
    (timers : next.queue.timers = loop.queue.timers)
    (unrun : next.phase.unrun ⊆ loop.phase.unrun) : next.RanOnce := by
  refine once.of_quiet quiet due created.ge ?_
  intro other alive _
  refine ⟨other, live other alive, rfl, rfl, ?_⟩
  intro _ spent
  constructor
  · rw [pending]
    exact spent.not_pending
  · rw [timers]
    exact spent.not_held
  · intro waiting
    exact spent.not_waiting (unrun waiting)

/-- The addresses of a batch differ from each other and from those that wait to
be added. -/
theorem Inv.spent_of_run (inv : loop.Inv) {now : Timestamp}
    {ran remaining : List Entry} {located : Located}
    (phase : loop.phase = .calling now ran (located.entry :: remaining))
    (history : List TimerEvent) :
    Spent { loop with
      phase := .calling now (ran ++ [located.entry]) remaining, history }
      located := by
  have member : located.entry ∈ loop.phase.batch := by
    simp [phase, Phase.batch]
  obtain ⟨_, distinct, apart⟩ := List.nodup_append.mp inv.owns.nodup
  constructor
  · intro pending
    exact apart _ pending located.address
      (List.mem_map_of_mem (List.mem_append_right _ member)) rfl
  · intro held
    exact inv.apart_batch member located.entry held rfl
  · intro later
    rw [List.map_append, phase, Phase.batch, List.map_append] at distinct
    have rest := (List.nodup_append.mp
      (List.nodup_append.mp distinct).2.1).2.1
    exact (List.nodup_cons.mp rest).1 (List.mem_map_of_mem later)

theorem RanOnce.run (once : loop.RanOnce) (inv : loop.Inv) {now : Timestamp}
    {ran remaining : List Entry} {located : Located}
    (phase : loop.phase = .calling now ran (located.entry :: remaining))
    (live : loop.queue.Live located) :
    RanOnce { loop with
      phase := .calling now (ran ++ [located.entry]) remaining
      history := loop.history ++ [.ran located now] } := by
  have due := once.due
  rw [phase] at due
  constructor
  · intro entry member
    exact due entry (List.mem_cons_of_mem _ member)
  · intro other time member
    rcases List.mem_append.mp member with early | late
    · exact once.ran_due other time early
    · obtain ⟨rfl, rfl⟩ :=
        TimerEvent.ran.inj (List.mem_singleton.mp late)
      exact due _ List.mem_cons_self
  · intro other member
    rw [ranOf_concat_ran] at member
    rcases List.mem_append.mp member with early | late
    · exact once.ran_numbered other early
    · rw [List.mem_singleton.mp late]
      exact (inv.numbered.live_le located live).2
  · intro old member other liveOther same
    rw [ranOf_concat_ran] at member
    rcases List.mem_append.mp member with early | late
    · obtain ⟨repeats, spent⟩ :=
        once.ran_spent old early other liveOther same
      refine ⟨repeats, ?_⟩
      intro single
      obtain ⟨pending, held, waiting⟩ := spent single
      rw [phase] at waiting
      exact ⟨pending, held, fun later =>
        waiting (List.mem_cons_of_mem _ later)⟩
    · rw [List.mem_singleton.mp late] at same ⊢
      have equal : other = located :=
        TimerQueue.Live.eq_of_id liveOther live same
      rw [equal]
      exact ⟨rfl, fun _ => inv.spent_of_run phase _⟩
  · rw [ranOf_concat_ran, List.pairwise_append]
    refine ⟨once.ran_once, List.pairwise_singleton _ _, ?_⟩
    intro other member last final same
    rw [List.mem_singleton.mp final] at same
    by_contra single
    obtain ⟨repeats, spent⟩ :=
      once.ran_spent other member located live same.symm
    rw [Bool.not_eq_true] at single
    apply (spent (repeats.trans single)).not_waiting
    rw [phase]
    exact List.mem_cons_self

/-- No step makes a timer run early or twice. -/
theorem TimerStep.ranOnce {action : TimerAction} {next : TimerLoop}
    (step : TimerStep loop action next) (inv : loop.Inv)
    (once : loop.RanOnce) : next.RanOnce := by
  cases step with
  | @create address when interval free bound =>
      refine once.of_quiet (.inl rfl) once.due (Nat.le_succ _) ?_
      intro other live old
      rcases (TimerQueue.live_store_free free).mp live with rfl | before
      · exact (Nat.not_succ_le_self _ old).elim
      · refine ⟨other, before, rfl, rfl, ?_⟩
        intro _ spent
        refine ⟨?_, spent.not_held, spent.not_waiting⟩
        intro pending
        rcases List.mem_cons.mp pending with same | older
        · rw [TimerQueue.Live, same, free] at before
          cases before
        · exact spent.not_pending older
  | @add located calls live apart member =>
      refine once.of_quiet (.inr ⟨_, rfl, rfl⟩) once.due (Nat.le_refl _) ?_
      intro other alive _
      rw [TimerQueue.added_eq] at alive
      refine ⟨other, alive, rfl, rfl, ?_⟩
      intro _ spent
      refine ⟨?_, ?_, spent.not_waiting⟩
      · intro pending
        exact spent.not_pending (List.mem_of_mem_erase pending)
      · intro held
        rcases (TimerQueue.holds_added live).mp ⟨by
          rw [TimerQueue.added_eq]
          exact alive, held⟩ with rfl | old
        · exact spent.not_pending member
        · exact spent.not_held old.2
  | cancelHeld calls holds =>
      refine once.of_quiet (.inr ⟨_, rfl, rfl⟩) once.due (Nat.le_refl _) ?_
      intro other alive _
      refine ⟨other, (TimerQueue.live_drop.mp alive).2, rfl, rfl, ?_⟩
      intro _ spent
      refine ⟨spent.not_pending, ?_, spent.not_waiting⟩
      intro held
      exact spent.not_held (OrderedSet.mem_erase.mp held).2
  | cancelCalling calls absent calling =>
      exact once.of_same (.inr ⟨_, rfl, rfl⟩) once.due rfl (fun _ => id) rfl
        rfl (List.Subset.refl _)
  | cancelIdle absent idle =>
      exact once.of_same (.inr ⟨_, rfl, rfl⟩) once.due rfl (fun _ => id) rfl
        rfl (List.Subset.refl _)
  | @start queue idle starts =>
      refine once.of_quiet (.inl rfl) ?_ (Nat.le_refl _) ?_
      · intro entry member
        exact (TimerQueue.mem_expired.mp member).2
      · intro other alive _
        have heap : queue.heap = loop.queue.heap := by
          rw [starts.same, TimerQueue.readTimerfd_eq]
        refine ⟨other, (congrFun heap _).symm.trans alive, rfl, rfl, ?_⟩
        intro _ spent
        refine ⟨spent.not_pending, ?_, ?_⟩
        · intro held
          apply spent.not_held
          rw [OrderedSet.mem_def, starts.items]
          exact List.mem_append_right _ held
        · intro waiting
          exact spent.not_held (TimerQueue.mem_expired.mp waiting).1
  | run phase live => exact once.run inv phase live
  | stop phase =>
      exact once.of_same (.inl rfl) trivial rfl (fun _ => id) rfl rfl
        (List.nil_subset _)
  | @renew now remaining located phase live apart repeats kept =>
      refine once.of_quiet (.inl rfl) trivial (Nat.le_refl _) ?_
      intro other alive _
      rcases TimerQueue.live_store.mp alive with rfl | ⟨different, before⟩
      · refine ⟨located, live, rfl, rfl, ?_⟩
        intro single
        cases repeats.symm.trans single
      · refine ⟨other, before, rfl, rfl, ?_⟩
        intro _ spent
        refine ⟨spent.not_pending, ?_, List.not_mem_nil⟩
        intro held
        rcases (TimerQueue.holds_renewed apart).mp ⟨alive, held⟩ with
          rfl | old
        · exact different rfl
        · exact spent.not_held old.2
  | discard phase live apart gone =>
      refine once.of_same (.inl rfl) trivial rfl ?_ rfl rfl
        (List.nil_subset _)
      intro other alive
      exact (TimerQueue.live_freed.mp alive).2
  | finish phase =>
      rw [TimerQueue.rearmed_eq]
      exact once.of_same (.inl rfl) trivial rfl (fun _ => id) rfl rfl
        (List.nil_subset _)
  | setClock clock =>
      exact once.of_same (.inl rfl) once.due rfl (fun _ => id) rfl rfl
        (List.Subset.refl _)

/-- The callback of a timer ran. -/
def Ran (loop : TimerLoop) (located : Located) : Prop :=
  ∃ now, .ran located now ∈ loop.history

/-- An allocated timer in the queue or in the batch. -/
def Keeps (loop : TimerLoop) (located : Located) : Prop :=
  loop.queue.Live located ∧
    (located.entry ∈ loop.queue.timers ∨ located.entry ∈ loop.phase.batch)

/-- The timer of an id is still there, or its callback ran. -/
def Known (loop : TimerLoop) (id : TimerId) : Prop :=
  ∃ located, located.id = id ∧ (loop.Keeps located ∨ loop.Ran located)

/-- No timer that was added and not cancelled gets lost. -/
structure Present (loop : TimerLoop) : Prop where
  batch_ran : ∀ located, loop.queue.Live located →
    located.entry ∈ loop.phase.batch → located.entry ∉ loop.phase.unrun →
    loop.Ran located
  known : ∀ located, Added loop.history located → loop.Known located.id

theorem present_new (clock : Timestamp) : (TimerLoop.new clock).Present where
  batch_ran := by
    intro located live
    cases live
  known := by
    intro located added
    exact (not_inForce_nil _ _ added).elim

theorem Present.of_step (present : loop.Present) {next : TimerLoop}
    (ran : ∀ located, loop.Ran located → next.Ran located)
    (batch : ∀ located, next.queue.Live located →
      located.entry ∈ next.phase.batch → located.entry ∉ next.phase.unrun →
      next.Ran located ∨ (loop.queue.Live located ∧
        located.entry ∈ loop.phase.batch ∧
        located.entry ∉ loop.phase.unrun))
    (known : ∀ located, Added next.history located →
      next.Known located.id ∨ (Added loop.history located ∧
        ∀ other, other.id = located.id → loop.Keeps other →
          next.Known located.id)) :
    next.Present := by
  constructor
  · intro located live member waiting
    rcases batch located live member waiting with
      done | ⟨before, old, oldWaiting⟩
    · exact done
    · exact ran located (present.batch_ran located before old oldWaiting)
  · intro located added
    rcases known located added with here | ⟨before, keeps⟩
    · exact here
    · obtain ⟨other, same, kept | done⟩ := present.known located before
      · exact keeps other same kept
      · exact ⟨other, same, .inr (ran other done)⟩

theorem Present.of_keeps (present : loop.Present) {next : TimerLoop}
    (ran : ∀ located, loop.Ran located → next.Ran located)
    (batch : ∀ located, next.queue.Live located →
      located.entry ∈ next.phase.batch → located.entry ∉ next.phase.unrun →
      next.Ran located ∨ (loop.queue.Live located ∧
        located.entry ∈ loop.phase.batch ∧
        located.entry ∉ loop.phase.unrun))
    (added : ∀ located, Added next.history located →
      Added loop.history located)
    (keeps : ∀ located, loop.Keeps located → next.Keeps located) :
    next.Present := by
  refine present.of_step ran batch ?_
  intro located now
  refine .inr ⟨added located now, ?_⟩
  intro other same kept
  exact ⟨other, same, .inl (keeps other kept)⟩

theorem ran_concat {next : TimerLoop} {event : TimerEvent}
    (history : next.history = loop.history ++ [event]) (located : Located)
    (ran : loop.Ran located) : next.Ran located := by
  obtain ⟨now, member⟩ := ran
  refine ⟨now, ?_⟩
  rw [history]
  exact List.mem_append_left _ member

theorem Present.add (present : loop.Present) {located : Located}
    (live : loop.queue.Live located) :
    Present { loop with
      queue := loop.queue.added located
      pending := loop.pending.erase located.address
      history := loop.history ++ [.added located] } := by
  refine present.of_step (ran_concat rfl) ?_ ?_
  · intro other alive inside waiting
    rw [TimerQueue.added_eq] at alive
    exact .inr ⟨alive, inside, waiting⟩
  · have keeps : ∀ other, other = located ∨ loop.Keeps other →
        Keeps { loop with
          queue := loop.queue.added located
          pending := loop.pending.erase located.address
          history := loop.history ++ [.added located] } other := by
      intro other either
      rcases either with rfl | ⟨alive, held | inside⟩
      · obtain ⟨liveAdded, held⟩ :=
          (TimerQueue.holds_added live).mpr (.inl rfl)
        exact ⟨liveAdded, .inl held⟩
      · obtain ⟨liveAdded, heldAdded⟩ :=
          (TimerQueue.holds_added live).mpr (.inr ⟨alive, held⟩)
        exact ⟨liveAdded, .inl heldAdded⟩
      · refine ⟨?_, .inr inside⟩
        simp only
        rw [TimerQueue.added_eq]
        exact alive
    intro other added
    rcases added_concat_added.mp added with rfl | before
    · exact .inl ⟨other, rfl, .inl (keeps other (.inl rfl))⟩
    · refine .inr ⟨before, ?_⟩
      intro old same kept
      exact ⟨old, same, .inl (keeps old (.inr kept))⟩

theorem Present.cancelHeld (present : loop.Present) {located : Located}
    (holds : loop.queue.Holds located) :
    Present { loop with
      queue := loop.queue.drop located
      history := loop.history ++ [.cancelled located.id] } := by
  refine present.of_step (ran_concat rfl) ?_ ?_
  · intro other alive inside waiting
    exact .inr ⟨(TimerQueue.live_drop.mp alive).2, inside, waiting⟩
  · intro other added
    obtain ⟨before, different⟩ := added_concat_cancelled.mp added
    refine .inr ⟨before, ?_⟩
    intro old same kept
    obtain ⟨alive, place⟩ := kept
    have apart : old.address ≠ located.address := by
      intro here
      apply different
      rw [← alive.unique holds.1 here, same]
    refine ⟨old, same, .inl ⟨TimerQueue.live_drop.mpr ⟨apart, alive⟩, ?_⟩⟩
    rcases place with held | inside
    · refine .inl (OrderedSet.mem_erase.mpr ⟨?_, held⟩)
      intro entry
      exact apart (congrArg Entry.second entry)
    · exact .inr inside

theorem Present.renew (present : loop.Present) (inv : loop.Inv)
    {now : Timestamp} {remaining : List Entry} {located : Located}
    (phase : loop.phase = .resetting now (located.entry :: remaining))
    (live : loop.queue.Live located)
    (apart : loop.queue.Apart located.address) :
    Present { loop with
      queue := loop.queue.renewed located now
      phase := .resetting now remaining } := by
  refine present.of_step (fun _ => id) ?_ ?_
  · intro other alive inside _
    have different := inv.batch_distinct phase other.entry inside
    rw [phase]
    rcases TimerQueue.live_store.mp alive with rfl | ⟨_, before⟩
    · exact (different rfl).elim
    · exact .inr ⟨before, List.mem_cons_of_mem _ inside,
        List.not_mem_nil⟩
  · intro other added
    refine .inr ⟨added, ?_⟩
    intro old same kept
    obtain ⟨alive, place⟩ := kept
    by_cases here : old.address = located.address
    · rw [alive.unique live here] at same
      obtain ⟨liveNow, heldNow⟩ :=
        (TimerQueue.holds_renewed apart).mpr (.inl rfl)
      exact ⟨located.restart now, same, .inl ⟨liveNow, .inl heldNow⟩⟩
    · refine ⟨old, same, .inl ⟨TimerQueue.live_store.mpr
        (.inr ⟨here, alive⟩), ?_⟩⟩
      rcases place with held | inside
      · exact .inl ((TimerQueue.holds_renewed apart).mpr
          (.inr ⟨alive, held⟩)).2
      · rw [phase] at inside
        rcases List.mem_cons.mp inside with first | later
        · exact (here (congrArg Entry.second first)).elim
        · exact .inr later

theorem Present.discard (present : loop.Present) {now : Timestamp}
    {remaining : List Entry} {located : Located}
    (phase : loop.phase = .resetting now (located.entry :: remaining))
    (live : loop.queue.Live located) :
    Present { loop with
      queue := loop.queue.freed located
      phase := .resetting now remaining } := by
  refine present.of_step (fun _ => id) ?_ ?_
  · intro other alive inside _
    rw [phase]
    exact .inr ⟨(TimerQueue.live_freed.mp alive).2,
      List.mem_cons_of_mem _ inside, List.not_mem_nil⟩
  · intro other added
    refine .inr ⟨added, ?_⟩
    intro old same kept
    obtain ⟨alive, place⟩ := kept
    by_cases here : old.address = located.address
    · rw [alive.unique live here] at same
      have ran : loop.Ran located := by
        apply present.batch_ran located live
        · simp [phase, Phase.batch]
        · simp [phase, Phase.unrun]
      exact ⟨located, same, .inr ran⟩
    · refine ⟨old, same, .inl
        ⟨TimerQueue.live_freed.mpr ⟨here, alive⟩, ?_⟩⟩
      rcases place with held | inside
      · exact .inl held
      · rw [phase] at inside
        rcases List.mem_cons.mp inside with first | later
        · exact (here (congrArg Entry.second first)).elim
        · exact .inr later

/-- No step loses a timer. -/
theorem TimerStep.present {action : TimerAction} {next : TimerLoop}
    (step : TimerStep loop action next) (inv : loop.Inv)
    (present : loop.Present) : next.Present := by
  cases step with
  | @create address when interval free bound =>
      refine present.of_keeps (fun _ => id) ?_ (fun _ => id) ?_
      · intro located live member waiting
        rcases (TimerQueue.live_store_free free).mp live with rfl | before
        · obtain ⟨other, alive, same⟩ := inv.batch_live _ member
          have place : other.address = address :=
            congrArg Entry.second same
          rw [TimerQueue.Live, place, free] at alive
          cases alive
        · exact .inr ⟨before, member, waiting⟩
      · intro located kept
        obtain ⟨live, place⟩ := kept
        exact ⟨(TimerQueue.live_store_free free).mpr (.inr live), place⟩
  | add calls live apart member => exact present.add live
  | cancelHeld calls holds => exact present.cancelHeld holds
  | cancelCalling calls absent calling =>
      refine present.of_keeps (ran_concat rfl) ?_ ?_ (fun _ => id)
      · intro other alive inside waiting
        exact .inr ⟨alive, inside, waiting⟩
      · intro other added
        exact (added_concat_cancelled.mp added).1
  | cancelIdle absent idle =>
      refine present.of_keeps (ran_concat rfl) ?_ ?_ (fun _ => id)
      · intro other alive inside waiting
        exact .inr ⟨alive, inside, waiting⟩
      · intro other added
        exact (added_concat_cancelled.mp added).1
  | @start queue idle starts =>
      have heap : queue.heap = loop.queue.heap := by
        rw [starts.same, TimerQueue.readTimerfd_eq]
      refine present.of_keeps (fun _ => id) ?_ (fun _ => id) ?_
      · intro other _ inside waiting
        exact (waiting inside).elim
      · intro other kept
        obtain ⟨alive, place⟩ := kept
        refine ⟨(congrFun heap _).trans alive, ?_⟩
        rcases place with held | inside
        · rw [OrderedSet.mem_def, starts.items, List.mem_append] at held
          exact held.symm
        · rw [idle] at inside
          cases inside
  | @run now ran remaining located phase live =>
      have batch : ∀ entry, entry ∈ loop.phase.batch ↔
          entry ∈ (Phase.calling now (ran ++ [located.entry])
            remaining).batch := by
        simp [phase, Phase.batch]
      refine present.of_keeps (ran_concat rfl) ?_ ?_ ?_
      · intro other alive inside waiting
        by_cases same : other = located
        · rw [same]
          exact .inl ⟨now, List.mem_append_right _ List.mem_cons_self⟩
        · refine .inr ⟨alive, (batch _).mpr inside, ?_⟩
          rw [phase]
          intro member
          rcases List.mem_cons.mp member with first | later
          · exact same (TimerQueue.Live.eq_of_entry alive live first)
          · exact waiting later
      · intro other added
        exact added_concat_ran.mp added
      · intro other kept
        obtain ⟨alive, place⟩ := kept
        exact ⟨alive, place.imp id (batch _).mp⟩
  | @stop now ran phase =>
      have batch : loop.phase.batch = (Phase.resetting now ran).batch := by
        simp [phase, Phase.batch]
      refine present.of_keeps (fun _ => id) ?_ (fun _ => id) ?_
      · intro other alive inside waiting
        refine .inr ⟨alive, batch ▸ inside, ?_⟩
        rw [phase]
        exact List.not_mem_nil
      · intro other kept
        obtain ⟨alive, place⟩ := kept
        exact ⟨alive, batch ▸ place⟩
  | renew phase live apart repeats kept =>
      exact present.renew inv phase live apart
  | discard phase live apart gone => exact present.discard phase live
  | finish phase =>
      refine present.of_keeps (fun _ => id) ?_ (fun _ => id) ?_
      · intro other _ inside _
        cases inside
      · intro other kept
        obtain ⟨alive, place⟩ := kept
        rw [TimerQueue.rearmed_eq]
        rw [phase] at place
        exact ⟨alive, place⟩
  | setClock clock =>
      refine present.of_keeps (fun _ => id) ?_ (fun _ => id) (fun _ => id)
      intro other alive inside waiting
      exact .inr ⟨alive, inside, waiting⟩

/-- What the runs of a loop keep to: no timer runs before its expiration, only
repeating timers run twice, and a timer that was added and not cancelled is
still allocated, in the queue or in the batch, or its callback ran. -/
structure Reliable (loop : TimerLoop) : Prop where
  never_early : ∀ located now, .ran located now ∈ loop.history →
    located.timer.expiration ≤ now
  once : (ranOf loop.history).Pairwise fun located other =>
    located.id = other.id → located.timer.repeats = true
  never_lost : ∀ located, Added loop.history located →
    ∃ other, other.id = located.id ∧ (loop.Keeps other ∨ loop.Ran other)

end TimerLoop

section Runs

variable {mayMove : Timestamp → Timestamp → Prop} {clock : Timestamp}
variable {actions : List TimerAction} {loop : TimerLoop}

/-- Every invocation of `handleRead`, at whatever time it comes and whatever the
callbacks add and cancel, runs the timers that have expired and leaves the
timers that it should; so no run of a queue forgets a timer. -/
theorem expired_timers_run
    (runs : (timerMachine mayMove).Run (.new clock) actions loop) :
    loop.Reliable ∧
    ∀ middle after, .finishReset ∉ middle →
      (timerMachine mayMove).Run loop
        (.startCalling :: middle ++ [.finishReset]) after →
      ∃ events, loop.Handled after events := by
  have inv := run_inv runs
  have once := run_keeps (TimerLoop.ranOnce_new clock)
    (fun inv step => step.ranOnce inv) runs
  have present := run_keeps (TimerLoop.present_new clock)
    (fun inv step => step.present inv) runs
  refine ⟨⟨once.ran_due, once.ran_once, present.known⟩, ?_⟩
  intro middle after single handling
  exact inv.handleRead single handling

/-- Two timers expire together; the first callback adds a timer in the past and
cancels the second timer, whose callback cancels a third one. -/
theorem expired_timers_run_together :
    ∃ (loop after : TimerLoop) (events : List TimerEvent),
      loop.Reliable ∧ loop.Handled after events ∧
      (ranOf after.history).map Located.id = [⟨7, 1⟩, ⟨8, 2⟩] ∧
      after.queue.timers.items = [⟨15, 6⟩, ⟨25, 7⟩] := by
  have found : ((timerMachine (· ≤ ·)).execute (.new 10)
      ([.create 7 20 ⟨true, 5, by decide⟩, .addTimerInLoop 7,
        .create 8 20 ⟨false, 0, by decide⟩, .addTimerInLoop 8,
        .create 9 50 ⟨false, 0, by decide⟩, .addTimerInLoop 9,
        .setClock 20] ++ (.startCalling ::
        [.runCallback, .create 6 15 ⟨false, 0, by decide⟩,
          .addTimerInLoop 6, .cancelInLoop ⟨8, 2⟩, .runCallback,
          .cancelInLoop ⟨9, 3⟩, .stopCalling, .resetOne, .resetOne] ++
        [.finishReset]))).any
      (fun loop => (ranOf loop.history).map Located.id = [⟨7, 1⟩, ⟨8, 2⟩] ∧
        loop.queue.timers.items = [⟨15, 6⟩, ⟨25, 7⟩]) = true := by
    decide +kernel
  obtain ⟨after, runs, accepted⟩ := Machine.run_of_execute found
  obtain ⟨loop, before, handling⟩ := runs.split
  obtain ⟨reliable, handles⟩ := expired_timers_run before
  obtain ⟨events, handled⟩ := handles _ after (by decide) handling
  obtain ⟨ran, timers⟩ := of_decide_eq_true accepted
  exact ⟨loop, after, events, reliable, handled, ran, timers⟩

end Runs

end Muduo
