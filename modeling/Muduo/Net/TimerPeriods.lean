import Mathlib.Data.List.Chain
import Muduo.Net.TimerHistory

/-!
# The periods of a repeating timer

The callback of a timer runs first when the timer as it was added has expired.
Each later run is due one interval after the time at which the batch of the run
before it was collected, however late that was.
-/

namespace Muduo

open Library

/-- A run of a callback: the timer as it was, and the time of the batch. -/
structure TimerRun where
  located : Located
  now : Timestamp
  deriving DecidableEq, Repr

def TimerEvent.runFor? (id : TimerId) : TimerEvent → Option TimerRun
  | .ran located now => if located.id = id then some ⟨located, now⟩ else none
  | .added _ => none
  | .cancelled _ => none

/-- The runs of one timer, in order. -/
def runsOf (id : TimerId) (history : List TimerEvent) : List TimerRun :=
  history.filterMap (TimerEvent.runFor? id)

/-- The timer after a run, if it has been restarted. -/
def TimerRun.Renews (run : TimerRun) (located : Located) : Prop :=
  run.located.timer.repeats = true ∧ located = run.located.restart run.now

/-- The entries of the batch whose callbacks have run. -/
def Phase.served : Phase → List Entry
  | idle => []
  | calling _ ran _ => ran
  | resetting _ remaining => remaining

theorem Phase.mem_batch_of_served {phase : Phase} {entry : Entry}
    (member : entry ∈ phase.served) : entry ∈ phase.batch := by
  cases phase with
  | idle => cases member
  | calling now ran remaining => exact List.mem_append_left _ member
  | resetting now remaining => exact member

section Runs

variable {id : TimerId} {history : List TimerEvent} {located : Located}
  {now : Timestamp}

theorem runsOf_concat_silent {event : TimerEvent}
    (silent : event.ran? = none) :
    runsOf id (history ++ [event]) = runsOf id history := by
  cases event with
  | ran located now => cases silent
  | added located => simp [runsOf, TimerEvent.runFor?]
  | cancelled id => simp [runsOf, TimerEvent.runFor?]

theorem runsOf_concat_same :
    runsOf located.id (history ++ [.ran located now]) =
      runsOf located.id history ++ [⟨located, now⟩] := by
  simp [runsOf, TimerEvent.runFor?]

theorem runsOf_concat_other (different : located.id ≠ id) :
    runsOf id (history ++ [.ran located now]) = runsOf id history := by
  simp [runsOf, TimerEvent.runFor?, different]

theorem mem_runsOf {run : TimerRun} :
    run ∈ runsOf id history ↔
      run.located.id = id ∧ .ran run.located run.now ∈ history := by
  constructor
  · intro member
    obtain ⟨event, inside, found⟩ := List.mem_filterMap.mp member
    cases event with
    | added located => cases found
    | cancelled other => cases found
    | ran located now =>
        simp only [TimerEvent.runFor?] at found
        split at found
        next same =>
          cases found
          exact ⟨same, inside⟩
        next different => cases found
  · rintro ⟨rfl, inside⟩
    exact List.mem_filterMap.mpr ⟨_, inside, if_pos rfl⟩

end Runs

namespace TimerLoop

theorem Quiet.runsOf_eq {loop next : TimerLoop} (quiet : Quiet loop next)
    (id : TimerId) : runsOf id next.history = runsOf id loop.history := by
  rcases quiet with same | ⟨event, silent, same⟩
  · rw [same]
  · rw [same]
    exact runsOf_concat_silent silent

theorem Quiet.mem {loop next : TimerLoop} (quiet : Quiet loop next)
    {event : TimerEvent} (member : event ∈ loop.history) :
    event ∈ next.history := by
  rcases quiet with same | ⟨last, _, same⟩
  · rw [same]
    exact member
  · rw [same]
    exact List.mem_append_left _ member

/-- How an allocated timer fits to the runs it has had. -/
structure Timely (loop : TimerLoop) (located : Located) : Prop where
  fresh : located.address ∉ loop.pending →
    runsOf located.id loop.history = [] → .added located ∈ loop.history
  renewed : located.entry ∉ loop.phase.served →
    ∀ run ∈ (runsOf located.id loop.history).getLast?, run.Renews located
  served : located.entry ∈ loop.phase.served → ∃ now, loop.phase.At now ∧
    (runsOf located.id loop.history).getLast? = some ⟨located, now⟩

/-- The runs follow each other, and the next one will. -/
structure Periodic (loop : TimerLoop) : Prop where
  chain : ∀ id, (runsOf id loop.history).IsChain fun earlier later =>
    earlier.Renews later.located
  first_added : ∀ id, ∀ run ∈ (runsOf id loop.history).head?,
    .added run.located ∈ loop.history
  timely : ∀ located, loop.queue.Live located → loop.Timely located

variable {loop next : TimerLoop} {located : Located}

theorem periodic_new (clock : Timestamp) :
    (TimerLoop.new clock).Periodic where
  chain := by
    intro id
    exact .nil
  first_added := by
    intro id run first
    cases first
  timely := by
    intro located live
    cases live

theorem Periodic.of_quiet (periodic : loop.Periodic)
    (quiet : Quiet loop next)
    (timely : ∀ located, next.queue.Live located → next.Timely located) :
    next.Periodic where
  chain := by
    intro id
    rw [quiet.runsOf_eq]
    exact periodic.chain id
  first_added := by
    intro id run
    rw [quiet.runsOf_eq]
    intro first
    exact quiet.mem (periodic.first_added id run first)
  timely := timely

theorem Timely.of_quiet (timely : loop.Timely located)
    (quiet : Quiet loop next)
    (pending : located.address ∉ next.pending →
      located.address ∉ loop.pending ∨ .added located ∈ next.history)
    (served : located.entry ∈ next.phase.served ↔
      located.entry ∈ loop.phase.served)
    (clock : located.entry ∈ next.phase.served → ∀ now,
      loop.phase.At now → next.phase.At now) : next.Timely located where
  fresh := by
    rw [quiet.runsOf_eq]
    intro left none
    rcases pending left with before | added
    · exact quiet.mem (timely.fresh before none)
    · exact added
  renewed := by
    rw [quiet.runsOf_eq, served]
    exact timely.renewed
  served := by
    rw [quiet.runsOf_eq]
    intro inside
    obtain ⟨now, at_now, last⟩ := timely.served (served.mp inside)
    exact ⟨now, clock inside now at_now, last⟩

theorem Timely.of_phase (timely : loop.Timely located)
    (quiet : Quiet loop next) (phase : next.phase = loop.phase)
    (pending : located.address ∉ next.pending →
      located.address ∉ loop.pending ∨ .added located ∈ next.history) :
    next.Timely located := by
  apply timely.of_quiet quiet pending
  · rw [phase]
  · rw [phase]
    intro _ now at_now
    exact at_now

theorem Timely.of_reset {other : Located} (timely : loop.Timely other)
    {now : Timestamp} {entry : Entry} {remaining : List Entry}
    (phase : loop.phase = .resetting now (entry :: remaining))
    (different : other.address ≠ entry.second) (queue : TimerQueue) :
    Timely { loop with queue, phase := .resetting now remaining } other := by
  refine timely.of_quiet (.inl rfl) .inl ?_ ?_
  · rw [phase]
    constructor
    · intro inside
      exact List.mem_cons_of_mem _ inside
    · intro inside
      rcases List.mem_cons.mp inside with first | later
      · exact (different (congrArg Entry.second first)).elim
      · exact later
  · rw [phase]
    intro _ time at_time
    exact at_time

theorem RanOnce.runsOf_fresh (once : loop.RanOnce) {address sequence : Nat}
    (later : loop.numCreated < sequence) :
    runsOf ⟨address, sequence⟩ loop.history = [] := by
  apply List.eq_nil_iff_forall_not_mem.mpr
  intro run member
  obtain ⟨same, inside⟩ := mem_runsOf.mp member
  have ran : run.located ∈ ranOf loop.history :=
    List.mem_filterMap.mpr ⟨_, inside, rfl⟩
  have bound := once.ran_numbered run.located ran
  have number : run.located.timer.sequence = sequence :=
    congrArg TimerId.sequence same
  omega

/-- The entry that runs next has not been served in this batch. -/
theorem Inv.next_unserved (inv : loop.Inv) {now : Timestamp}
    {ran remaining : List Entry}
    (phase : loop.phase = .calling now ran (located.entry :: remaining)) :
    located.entry ∉ loop.phase.served ∧ located.address ∉ loop.pending := by
  obtain ⟨_, distinct, apart⟩ := List.nodup_append.mp inv.owns.nodup
  rw [phase] at distinct apart ⊢
  constructor
  · intro before
    rw [List.map_append, Phase.batch, List.map_append] at distinct
    have disjoint := (List.nodup_append.mp
      (List.nodup_append.mp distinct).2.1).2.2
    exact disjoint _ (List.mem_map_of_mem before) _
      (List.mem_map_of_mem List.mem_cons_self) rfl
  · intro pending
    apply apart _ pending located.address ?_ rfl
    exact List.mem_map_of_mem (List.mem_append_right _
      (List.mem_append_right _ List.mem_cons_self))

theorem Periodic.run (periodic : loop.Periodic) (inv : loop.Inv)
    {now : Timestamp} {ran remaining : List Entry}
    (phase : loop.phase = .calling now ran (located.entry :: remaining))
    (live : loop.queue.Live located) :
    Periodic { loop with
      phase := .calling now (ran ++ [located.entry]) remaining
      history := loop.history ++ [.ran located now] } := by
  obtain ⟨unserved, left⟩ := inv.next_unserved phase
  have own := periodic.timely located live
  refine ⟨?_, ?_, ?_⟩
  · intro id
    by_cases same : located.id = id
    · subst same
      rw [runsOf_concat_same]
      apply (periodic.chain located.id).append (.singleton _)
      intro earlier last later only
      obtain rfl := Option.some.inj only
      exact own.renewed unserved earlier last
    · rw [runsOf_concat_other same]
      exact periodic.chain id
  · intro id run first
    apply List.mem_append_left
    by_cases same : located.id = id
    · subst same
      rw [runsOf_concat_same] at first
      cases runs : runsOf located.id loop.history with
      | nil =>
          rw [runs] at first
          obtain rfl := Option.some.inj first
          exact own.fresh left runs
      | cons head rest =>
          rw [runs] at first
          apply periodic.first_added located.id run
          rw [runs]
          exact first
    · rw [runsOf_concat_other same] at first
      exact periodic.first_added id run first
  · intro other alive
    by_cases same : located.id = other.id
    · obtain rfl := TimerQueue.Live.eq_of_id live alive same
      refine ⟨?_, ?_, ?_⟩
      · rw [runsOf_concat_same]
        intro _ none
        exact (List.append_ne_nil_of_right_ne_nil _ (by simp) none).elim
      · intro outside
        exact (outside (List.mem_append_right _ List.mem_cons_self)).elim
      · intro _
        rw [runsOf_concat_same]
        exact ⟨now, rfl, List.getLast?_concat⟩
    · have before := periodic.timely other alive
      have served : other.entry ∈ ran ++ [located.entry] ↔
          other.entry ∈ loop.phase.served := by
        rw [phase, List.mem_append, List.mem_singleton]
        apply or_iff_left
        intro entry
        exact same (congrArg Located.id (live.eq_of_entry alive entry.symm))
      refine ⟨?_, ?_, ?_⟩
      · rw [runsOf_concat_other same]
        intro added none
        exact List.mem_append_left _ (before.fresh added none)
      · rw [runsOf_concat_other same]
        intro outside
        exact before.renewed fun inside => outside (served.mpr inside)
      · rw [runsOf_concat_other same]
        intro inside
        obtain ⟨time, at_time, last⟩ := before.served (served.mp inside)
        rw [phase] at at_time
        exact ⟨time, at_time, last⟩

theorem Periodic.renew (periodic : loop.Periodic) (inv : loop.Inv)
    {now : Timestamp} {remaining : List Entry}
    (phase : loop.phase = .resetting now (located.entry :: remaining))
    (live : loop.queue.Live located)
    (repeats : located.timer.repeats = true) :
    Periodic { loop with
      queue := loop.queue.renewed located now
      phase := .resetting now remaining } := by
  refine periodic.of_quiet (.inl rfl) ?_
  intro other alive
  have distinct := inv.batch_distinct phase
  rcases TimerQueue.live_store.mp alive with rfl | ⟨different, before⟩
  · obtain ⟨time, at_time, last⟩ :=
      (periodic.timely located live).served (by
        rw [phase]
        exact List.mem_cons_self)
    rw [phase] at at_time
    obtain rfl : now = time := at_time
    refine ⟨?_, ?_, ?_⟩
    · intro _ none
      have same : runsOf located.id loop.history = [] := none
      rw [same] at last
      cases last
    · intro _ run final
      have same : run = ⟨located, now⟩ :=
        Option.some.inj (final.symm.trans last)
      rw [same]
      exact ⟨repeats, rfl⟩
    · intro inside
      exact (distinct _ inside rfl).elim
  · exact (periodic.timely other before).of_reset phase different _

theorem Periodic.create (periodic : loop.Periodic) (inv : loop.Inv)
    (once : loop.RanOnce) {address : Nat} {when : Timestamp}
    {interval : Interval} (free : loop.queue.heap address = none) :
    Periodic { loop with
      queue := loop.queue.store address
        (.new when interval (loop.numCreated + 1))
      pending := address :: loop.pending
      numCreated := loop.numCreated + 1 } := by
  refine periodic.of_quiet (.inl rfl) ?_
  intro other alive
  rcases (TimerQueue.live_store_free free).mp alive with rfl | before
  · have none : runsOf ⟨address, loop.numCreated + 1⟩ loop.history = [] :=
      once.runsOf_fresh (Nat.lt_succ_self _)
    refine ⟨?_, ?_, ?_⟩
    · intro left
      exact (left List.mem_cons_self).elim
    · intro _ run last
      have final : run ∈ (runsOf ⟨address, loop.numCreated + 1⟩
        loop.history).getLast? := last
      rw [none] at final
      cases final
    · intro inside
      obtain ⟨other, held, same⟩ :=
        inv.batch_live _ (Phase.mem_batch_of_served inside)
      have place : other.address = address := congrArg Entry.second same
      rw [TimerQueue.Live, place, free] at held
      cases held
  · refine (periodic.timely other before).of_phase (.inl rfl) rfl ?_
    intro left
    exact .inl fun pending => left (List.mem_cons_of_mem _ pending)

/-- Whatever happens, each run of a timer follows from the one before. -/
theorem TimerStep.periodic {action : TimerAction}
    (step : TimerStep loop action next) (inv : loop.Inv)
    (once : loop.RanOnce) (periodic : loop.Periodic) : next.Periodic := by
  cases step with
  | create free bound => exact periodic.create inv once free
  | @add located calls live apart member =>
      refine periodic.of_quiet (.inr ⟨_, rfl, rfl⟩) ?_
      intro other alive
      rw [TimerQueue.added_eq] at alive
      refine (periodic.timely other alive).of_phase (.inr ⟨_, rfl, rfl⟩)
        rfl ?_
      intro left
      by_cases here : other.address = located.address
      · right
        rw [TimerQueue.Live.unique alive live here]
        exact List.mem_append_right _ List.mem_cons_self
      · left
        intro pending
        exact left ((List.mem_erase_of_ne here).mpr pending)
  | cancelHeld calls holds =>
      refine periodic.of_quiet (.inr ⟨_, rfl, rfl⟩) ?_
      intro other alive
      exact (periodic.timely other (TimerQueue.live_drop.mp alive).2).of_phase
        (.inr ⟨_, rfl, rfl⟩) rfl .inl
  | cancelCalling calls absent calling =>
      refine periodic.of_quiet (.inr ⟨_, rfl, rfl⟩) ?_
      intro other alive
      exact (periodic.timely other alive).of_phase
        (.inr ⟨_, rfl, rfl⟩) rfl .inl
  | cancelIdle absent idle =>
      refine periodic.of_quiet (.inr ⟨_, rfl, rfl⟩) ?_
      intro other alive
      exact (periodic.timely other alive).of_phase
        (.inr ⟨_, rfl, rfl⟩) rfl .inl
  | @start queue idle starts =>
      refine periodic.of_quiet (.inl rfl) ?_
      intro other alive
      have heap : queue.heap = loop.queue.heap := by
        rw [starts.same, TimerQueue.readTimerfd_eq]
      have before := periodic.timely other ((congrFun heap _).symm.trans alive)
      refine before.of_quiet (.inl rfl) .inl ?_ ?_
      · rw [idle]
        rfl
      · intro inside
        cases inside
  | run phase live => exact periodic.run inv phase live
  | stop phase =>
      refine periodic.of_quiet (.inl rfl) ?_
      intro other alive
      refine (periodic.timely other alive).of_quiet (.inl rfl) .inl ?_ ?_
      · rw [phase]
        rfl
      · rw [phase]
        intro _ now at_now
        exact at_now
  | renew phase live apart repeats kept =>
      exact periodic.renew inv phase live repeats
  | @discard now remaining located phase live apart gone =>
      refine periodic.of_quiet (.inl rfl) ?_
      intro other alive
      obtain ⟨different, before⟩ := TimerQueue.live_freed.mp alive
      exact (periodic.timely other before).of_reset phase different _
  | finish phase =>
      rw [TimerQueue.rearmed_eq]
      refine periodic.of_quiet (.inl rfl) ?_
      intro other alive
      refine (periodic.timely other alive).of_quiet (.inl rfl) .inl ?_ ?_
      · rw [phase]
        rfl
      · intro inside
        cases inside
  | setClock clock =>
      refine periodic.of_quiet (.inl rfl) ?_
      intro other alive
      exact (periodic.timely other alive).of_phase (.inl rfl) rfl .inl

end TimerLoop

/-- The runs of one timer: it is the timer as it was added, and as it was
restarted at the time of each batch; none comes early. -/
structure Regular (history : List TimerEvent) (runs : List TimerRun) :
    Prop where
  first_added : ∀ run ∈ runs.head?, .added run.located ∈ history
  chain : runs.IsChain fun earlier later => earlier.Renews later.located
  due : ∀ run ∈ runs, run.located.timer.expiration ≤ run.now

/-- Each run puts the next one off by an interval at least, whichever batches
the runs in between came in. -/
theorem spaced {runs : List TimerRun} {first : TimerRun}
    (chain : (first :: runs).IsChain fun earlier later =>
      earlier.Renews later.located)
    (due : ∀ run ∈ first :: runs, run.located.timer.expiration ≤ run.now) :
    ∀ last ∈ (first :: runs).getLast?,
      first.located.timer.expiration +
        runs.length * (first.located.timer.interval.micros : Int) ≤
          last.now := by
  induction runs generalizing first with
  | nil =>
      intro last only
      obtain rfl := Option.some.inj only
      simpa using due first List.mem_cons_self
  | cons second rest induction =>
      intro last final
      obtain ⟨renews, later⟩ := List.isChain_cons_cons.mp chain
      obtain ⟨repeats, restarted⟩ := renews
      have before := due first List.mem_cons_self
      have bound := induction later
        (fun run member => due run (List.mem_cons_of_mem _ member)) last
        (by rwa [List.getLast?_cons_cons] at final)
      have interval : second.located.timer.interval =
          first.located.timer.interval := by
        rw [restarted]
        rfl
      have expiration : second.located.timer.expiration =
          first.now + first.located.timer.interval.micros := by
        rw [restarted]
        simp only [Located.restart, Timer.restart, if_pos repeats, addTime]
      rw [interval, expiration] at bound
      rw [List.length_cons, Int.natCast_succ, Int.add_mul, Int.one_mul]
      calc
        _ ≤ first.now + (rest.length *
              (first.located.timer.interval.micros : Int) +
            first.located.timer.interval.micros) :=
          Int.add_le_add_right before _
        _ = first.now + first.located.timer.interval.micros +
            rest.length * (first.located.timer.interval.micros : Int) := by
          rw [Int.add_comm (_ * _), Int.add_assoc]
        _ ≤ last.now := bound

section Runs

variable {mayMove : Timestamp → Timestamp → Prop} {clock : Timestamp}
variable {actions : List TimerAction} {loop : TimerLoop}

theorem run_periodic
    (runs : (timerMachine mayMove).Run (.new clock) actions loop) :
    loop.RanOnce ∧ loop.Periodic := by
  refine ((TimerLoop.new_inv clock).keeps (fun loop =>
    loop.RanOnce ∧ loop.Periodic) ?_ ?_ runs).2
  · exact ⟨TimerLoop.ranOnce_new clock, TimerLoop.periodic_new clock⟩
  · rintro loop action next inv step ⟨once, periodic⟩
    exact ⟨step.ranOnce inv once, step.periodic inv once periodic⟩

/-- Along every run of a queue, however its clock moves, the callback of a
timer first runs for the timer as it was added, each later time for the timer
restarted at the batch before, and so `n` further runs need the time of `n`
intervals after its first expiration. -/
theorem run_regular
    (runs : (timerMachine mayMove).Run (.new clock) actions loop)
    (id : TimerId) :
    Regular loop.history (runsOf id loop.history) ∧
    ∀ first ∈ (runsOf id loop.history).head?,
      ∀ last ∈ (runsOf id loop.history).getLast?,
        first.located.timer.expiration +
          ((runsOf id loop.history).length - 1 : Nat) *
            (first.located.timer.interval.micros : Int) ≤ last.now := by
  obtain ⟨once, periodic⟩ := run_periodic runs
  have due : ∀ run ∈ runsOf id loop.history,
      run.located.timer.expiration ≤ run.now := by
    intro run member
    exact once.ran_due run.located run.now (mem_runsOf.mp member).2
  refine ⟨⟨periodic.first_added id, periodic.chain id, due⟩, ?_⟩
  intro first head last final
  have chain := periodic.chain id
  cases all : runsOf id loop.history with
  | nil =>
      rw [all] at head
      cases head
  | cons earliest rest =>
      rw [all] at head final due chain
      obtain rfl := Option.some.inj head
      exact spaced chain due last final

/-- Every five microseconds, but the second batch comes late and another timer
is cancelled in it. -/
theorem lateTimer_regular :
    ∃ loop : TimerLoop, Regular loop.history (runsOf ⟨7, 1⟩ loop.history) ∧
      (runsOf ⟨7, 1⟩ loop.history).map (fun run =>
        (run.located.timer.expiration, run.now)) =
          [(12, 13), (18, 30), (35, 36)] := by
  let batch : List TimerAction :=
    [.startCalling, .runCallback, .stopCalling, .resetOne, .finishReset]
  have found : ((timerMachine (· ≤ ·)).execute (.new 10)
      ([.create 7 12 ⟨true, 5, by decide⟩, .addTimerInLoop 7, .setClock 13] ++
        batch ++ [.create 8 20 ⟨true, 5, by decide⟩, .addTimerInLoop 8,
          .setClock 30, .startCalling, .runCallback, .cancelInLoop ⟨8, 2⟩,
          .runCallback, .stopCalling, .resetOne, .resetOne, .finishReset,
          .setClock 36] ++ batch)).any
      (fun loop => (runsOf ⟨7, 1⟩ loop.history).map (fun run =>
        (run.located.timer.expiration, run.now)) =
          [(12, 13), (18, 30), (35, 36)]) = true := by
    decide +kernel
  obtain ⟨loop, runs, accepted⟩ := Machine.run_of_execute found
  exact ⟨loop, (run_regular runs ⟨7, 1⟩).1, of_decide_eq_true accepted⟩

end Runs

end Muduo
