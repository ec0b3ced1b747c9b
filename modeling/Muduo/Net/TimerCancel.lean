import Muduo.Net.TimerHistory

/-!
# What a cancel leaves

A timer whose cancel was executed in the loop thread is `Ended`: it is neither in
the queue nor waiting to be added, and `reset` will not put it back.  It can only
run once more if it waits in the batch under way.
-/

namespace Muduo

open Library

theorem Phase.unrun_subset {phase : Phase} {entry : Entry}
    (later : entry ∈ phase.unrun) : entry ∈ phase.batch := by
  cases phase with
  | idle => cases later
  | calling now ran remaining => exact List.mem_append_right _ later
  | resetting now remaining => cases later

namespace TimerLoop

/-- The timer of an id, if it is allocated, was added, is not in the queue and
is not renewed at the end of the batch. -/
structure Ended (loop : TimerLoop) (id : TimerId) : Prop where
  numbered : id.sequence ≤ loop.numCreated
  not_pending : ∀ located, loop.queue.Live located → located.id = id →
    located.address ∉ loop.pending
  not_held : ∀ located, loop.queue.Live located → located.id = id →
    located.entry ∉ loop.queue.timers
  not_renewed : ∀ located, loop.queue.Live located → located.id = id →
    located.timer.repeats = true → id ∈ loop.queue.cancelingTimers

/-- The timer of an id waits in the batch for its callback. -/
def Waiting (loop : TimerLoop) (id : TimerId) : Prop :=
  ∃ located, loop.queue.Live located ∧ located.id = id ∧
    located.entry ∈ loop.phase.unrun

variable {loop next : TimerLoop} {id : TimerId}

/-- An ended timer is allocated during the batch that holds it only. -/
theorem Ended.in_batch (ended : loop.Ended id) (inv : loop.Inv)
    {located : Located} (live : loop.queue.Live located)
    (same : located.id = id) :
    loop.phase ≠ .idle ∧ located.entry ∈ loop.phase.batch := by
  rcases inv.held_once live (ended.not_pending located live same) with
    ⟨held, _⟩ | ⟨_, busy, inside⟩
  · exact (ended.not_held located live same held).elim
  · exact ⟨busy, inside⟩

theorem Ended.of_same (ended : loop.Ended id)
    (created : next.numCreated = loop.numCreated)
    (live : ∀ located, next.queue.Live located → loop.queue.Live located)
    (pending : next.pending = loop.pending)
    (timers : next.queue.timers = loop.queue.timers)
    (canceling : id ∈ loop.queue.cancelingTimers →
      id ∈ next.queue.cancelingTimers) : next.Ended id where
  numbered := created ▸ ended.numbered
  not_pending located alive same := by
    rw [pending]
    exact ended.not_pending located (live located alive) same
  not_held located alive same := by
    rw [timers]
    exact ended.not_held located (live located alive) same
  not_renewed located alive same repeats :=
    canceling (ended.not_renewed located (live located alive) same repeats)

theorem Ended.of_dead (numbered : id.sequence ≤ next.numCreated)
    (dead : ∀ located, next.queue.Live located → located.id ≠ id) :
    next.Ended id where
  numbered := numbered
  not_pending located live same := (dead located live same).elim
  not_held located live same := (dead located live same).elim
  not_renewed located live same := (dead located live same).elim

theorem Ended.create (ended : loop.Ended id) {address : Nat}
    {when : Timestamp} {interval : Interval}
    (free : loop.queue.heap address = none) :
    Ended { loop with
      queue := loop.queue.store address
        (.new when interval (loop.numCreated + 1))
      pending := address :: loop.pending
      numCreated := loop.numCreated + 1 } id := by
  have old : ∀ located, located.id = id →
      (loop.queue.store address
        (.new when interval (loop.numCreated + 1))).Live located →
      loop.queue.Live located := by
    intro located same alive
    rcases (TimerQueue.live_store_free free).mp alive with rfl | before
    · have number : loop.numCreated + 1 = id.sequence :=
        congrArg TimerId.sequence same
      have bound := ended.numbered
      omega
    · exact before
  constructor
  · exact Nat.le_succ_of_le ended.numbered
  · intro located alive same pending
    have live := old located same alive
    rcases List.mem_cons.mp pending with here | older
    · rw [TimerQueue.Live, here, free] at live
      cases live
    · exact ended.not_pending located live same older
  · intro located alive same
    exact ended.not_held located (old located same alive) same
  · intro located alive same
    exact ended.not_renewed located (old located same alive) same

theorem Ended.add (ended : loop.Ended id) {added : Located}
    (live : loop.queue.Live added) (member : added.address ∈ loop.pending) :
    Ended { loop with
      queue := loop.queue.added added
      pending := loop.pending.erase added.address
      history := loop.history ++ [.added added] } id := by
  have old : ∀ located, (loop.queue.added added).Live located →
      loop.queue.Live located := by
    intro located alive
    rw [TimerQueue.added_eq] at alive
    exact alive
  constructor
  · exact ended.numbered
  · intro located alive same pending
    exact ended.not_pending located (old located alive) same
      (List.mem_of_mem_erase pending)
  · intro located alive same held
    rcases (TimerQueue.holds_added live).mp ⟨alive, held⟩ with rfl | before
    · exact ended.not_pending located live same member
    · exact ended.not_held located before.1 same before.2
  · intro located alive same repeats
    have canceling := ended.not_renewed located (old located alive) same
      repeats
    rw [TimerQueue.added_eq]
    exact canceling

theorem Ended.drop (ended : loop.Ended id) (held : Located)
    (history : List TimerEvent) :
    Ended { loop with queue := loop.queue.drop held, history } id := by
  constructor
  · exact ended.numbered
  · intro located alive same
    exact ended.not_pending located (TimerQueue.live_drop.mp alive).2 same
  · intro located alive same holds
    exact ended.not_held located (TimerQueue.live_drop.mp alive).2 same
      (OrderedSet.mem_erase.mp holds).2
  · intro located alive same
    exact ended.not_renewed located (TimerQueue.live_drop.mp alive).2 same

theorem Ended.renew (ended : loop.Ended id) {renewed : Located}
    (live : loop.queue.Live renewed)
    (apart : loop.queue.Apart renewed.address)
    (repeats : renewed.timer.repeats = true)
    (kept : renewed.id ∉ loop.queue.cancelingTimers) (now : Timestamp)
    (phase : Phase) :
    Ended { loop with queue := loop.queue.renewed renewed now, phase } id := by
  have other : renewed.id ≠ id := by
    intro same
    apply kept
    rw [same]
    exact ended.not_renewed renewed live same repeats
  have old : ∀ located, (loop.queue.renewed renewed now).Live located →
      located.id = id →
      located.address ≠ renewed.address ∧ loop.queue.Live located := by
    intro located alive same
    rcases TimerQueue.live_store.mp alive with rfl | before
    · exact (other same).elim
    · exact before
  constructor
  · exact ended.numbered
  · intro located alive same
    exact ended.not_pending located (old located alive same).2 same
  · intro located alive same held
    obtain ⟨different, before⟩ := old located alive same
    rcases (TimerQueue.holds_renewed apart).mp ⟨alive, held⟩ with
      rfl | holds
    · exact different rfl
    · exact ended.not_held located before same holds.2
  · intro located alive same
    exact ended.not_renewed located (old located alive same).2 same

/-- An ended timer stays ended. -/
theorem TimerStep.ended {action : TimerAction}
    (step : TimerStep loop action next) (inv : loop.Inv)
    (ended : loop.Ended id) : next.Ended id := by
  cases step with
  | create free bound => exact ended.create free
  | add calls live apart member => exact ended.add live member
  | cancelHeld calls holds => exact ended.drop _ _
  | cancelCalling calls absent calling =>
      exact ended.of_same rfl (fun _ alive => alive) rfl rfl
        (fun member => OrderedSet.mem_insert.mpr (.inr member))
  | @start queue idle starts =>
      -- Between two batches no timer of the id is allocated.
      have heap : queue.heap = loop.queue.heap := by
        rw [starts.same, TimerQueue.readTimerfd_eq]
      refine .of_dead ended.numbered ?_
      intro located alive same
      have live : loop.queue.Live located :=
        (congrFun heap _).symm.trans alive
      exact (ended.in_batch inv live same).1 idle
  | renew phase live apart repeats kept =>
      exact ended.renew live apart repeats kept _ _
  | discard phase live apart gone =>
      exact ended.of_same rfl
        (fun _ alive => (TimerQueue.live_freed.mp alive).2) rfl rfl
        (fun member => member)
  | finish phase =>
      rw [TimerQueue.rearmed_eq]
      exact ended.of_same rfl (fun _ alive => alive) rfl rfl
        (fun member => member)
  | cancelIdle | run | stop | setClock =>
      exact ended.of_same rfl (fun _ alive => alive) rfl rfl
        (fun member => member)

/-- An ended timer does not come to wait for its callback. -/
theorem TimerStep.waiting {action : TimerAction}
    (step : TimerStep loop action next) (inv : loop.Inv)
    (ended : loop.Ended id) (waiting : next.Waiting id) :
    loop.Waiting id := by
  obtain ⟨located, alive, same, later⟩ := waiting
  cases step with
  | create free bound =>
      rcases (TimerQueue.live_store_free free).mp alive with rfl | before
      · have number : loop.numCreated + 1 = id.sequence :=
          congrArg TimerId.sequence same
        have bound := ended.numbered
        omega
      · exact ⟨located, before, same, later⟩
  | add calls live apart member =>
      simp only at alive
      rw [TimerQueue.added_eq] at alive
      exact ⟨located, alive, same, later⟩
  | cancelHeld calls holds =>
      exact ⟨located, (TimerQueue.live_drop.mp alive).2, same, later⟩
  | cancelCalling | cancelIdle | setClock =>
      exact ⟨located, alive, same, later⟩
  | @start queue idle starts =>
      have heap : queue.heap = loop.queue.heap := by
        rw [starts.same, TimerQueue.readTimerfd_eq]
      have live : loop.queue.Live located :=
        (congrFun heap _).symm.trans alive
      exact ((ended.in_batch inv live same).1 idle).elim
  | run phase live =>
      refine ⟨located, alive, same, ?_⟩
      rw [phase]
      exact List.mem_cons_of_mem _ later
  | stop phase => cases later
  | renew phase live apart repeats kept => cases later
  | discard phase live apart gone => cases later
  | finish phase => cases later

theorem TimerStep.history {action : TimerAction}
    (step : TimerStep loop action next) :
    ∃ events, next.history = loop.history ++ events ∧
      ∀ located ∈ ranOf events, loop.Waiting located.id := by
  have silent : ∀ event : TimerEvent, event.ran? = none →
      ∀ located ∈ ranOf [event], loop.Waiting located.id := by
    intro event none located member
    simp [ranOf, none] at member
  cases step with
  | add => exact ⟨_, rfl, silent _ rfl⟩
  | cancelHeld => exact ⟨_, rfl, silent _ rfl⟩
  | cancelCalling => exact ⟨_, rfl, silent _ rfl⟩
  | cancelIdle => exact ⟨_, rfl, silent _ rfl⟩
  | @run now ran remaining located phase live =>
      refine ⟨_, rfl, ?_⟩
      intro other member
      obtain rfl : other = located := by
        simpa [ranOf, TimerEvent.ran?] using member
      refine ⟨other, live, rfl, ?_⟩
      rw [phase]
      exact List.mem_cons_self
  | create | start | stop | renew | discard | finish | setClock =>
      refine ⟨[], (List.append_nil _).symm, ?_⟩
      intro located member
      cases member

/-- The timers that were added have numbers and do not wait to be added. -/
def Inserted (loop : TimerLoop) : Prop :=
  ∀ located, .added located ∈ loop.history →
    located.timer.sequence ≤ loop.numCreated ∧
    ∀ other, loop.queue.Live other → other.id = located.id →
      other.address ∉ loop.pending

theorem inserted_new (clock : Timestamp) : (TimerLoop.new clock).Inserted := by
  intro located member
  cases member

theorem Inserted.of_same (inserted : loop.Inserted)
    (added : ∀ located, .added located ∈ next.history →
      .added located ∈ loop.history)
    (created : next.numCreated = loop.numCreated)
    (live : ∀ other, next.queue.Live other →
      ∃ old, loop.queue.Live old ∧ old.id = other.id)
    (pending : next.pending = loop.pending) : next.Inserted := by
  intro located member
  obtain ⟨numbered, apart⟩ := inserted located (added located member)
  refine ⟨created ▸ numbered, ?_⟩
  intro other alive same
  obtain ⟨old, before, sameOld⟩ := live other alive
  have place : old.address = other.address := congrArg TimerId.timer sameOld
  rw [pending, ← place]
  exact apart old before (sameOld.trans same)

theorem TimerStep.inserted {action : TimerAction}
    (step : TimerStep loop action next) (inv : loop.Inv)
    (inserted : loop.Inserted) : next.Inserted := by
  have silent : ∀ event : TimerEvent,
      (∀ located, ¬ event = .added located) →
      ∀ located, .added located ∈ loop.history ++ [event] →
        .added located ∈ loop.history := by
    intro event other located member
    rcases List.mem_append.mp member with before | last
    · exact before
    · exact (other located (List.mem_singleton.mp last).symm).elim
  cases step with
  | @create address when interval free bound =>
      intro located member
      obtain ⟨numbered, apart⟩ := inserted located member
      refine ⟨Nat.le_succ_of_le numbered, ?_⟩
      intro other alive same pending
      rcases (TimerQueue.live_store_free free).mp alive with rfl | before
      · have number : loop.numCreated + 1 = located.timer.sequence :=
          congrArg TimerId.sequence same
        omega
      · rcases List.mem_cons.mp pending with here | older
        · rw [TimerQueue.Live, here, free] at before
          cases before
        · exact apart other before same older
  | @add added calls live apart member =>
      have distinct : loop.pending.Nodup :=
        (List.nodup_append.mp inv.owns.nodup).1
      intro located history
      rcases List.mem_append.mp history with before | last
      · obtain ⟨numbered, away⟩ := inserted located before
        refine ⟨numbered, ?_⟩
        intro other alive same pending
        simp only at alive
        rw [TimerQueue.added_eq] at alive
        exact away other alive same (List.mem_of_mem_erase pending)
      · obtain rfl : located = added :=
          TimerEvent.added.inj (List.mem_singleton.mp last)
        refine ⟨(inv.numbered.live_le located live).2, ?_⟩
        intro other _ same pending
        have place : other.address = located.address :=
          congrArg TimerId.timer same
        rw [place] at pending
        exact (distinct.not_mem_erase pending).elim
  | cancelHeld calls holds =>
      exact inserted.of_same (silent _ (by simp)) rfl
        (fun other alive => ⟨other, (TimerQueue.live_drop.mp alive).2, rfl⟩)
        rfl
  | cancelCalling | cancelIdle | run =>
      exact inserted.of_same (silent _ (by simp)) rfl
        (fun other alive => ⟨other, alive, rfl⟩) rfl
  | @start queue idle starts =>
      have heap : queue.heap = loop.queue.heap := by
        rw [starts.same, TimerQueue.readTimerfd_eq]
      exact inserted.of_same (fun _ member => member) rfl
        (fun other alive => ⟨other, (congrFun heap _).symm.trans alive, rfl⟩)
        rfl
  | @renew now remaining renewed phase live apart repeats kept =>
      refine inserted.of_same (fun _ member => member) rfl ?_ rfl
      intro other alive
      rcases TimerQueue.live_store.mp alive with rfl | ⟨_, before⟩
      · exact ⟨renewed, live, rfl⟩
      · exact ⟨other, before, rfl⟩
  | discard phase live apart gone =>
      exact inserted.of_same (fun _ member => member) rfl
        (fun other alive => ⟨other, (TimerQueue.live_freed.mp alive).2, rfl⟩)
        rfl
  | finish phase =>
      rw [TimerQueue.rearmed_eq]
      exact inserted.of_same (fun _ member => member) rfl
        (fun other alive => ⟨other, alive, rfl⟩) rfl
  | stop | setClock =>
      exact inserted.of_same (fun _ member => member) rfl
        (fun other alive => ⟨other, alive, rfl⟩) rfl

/-- A cancel ends a timer that was added, and leaves it in the batch where it
waits there. -/
theorem TimerStep.ended_of_cancel
    (step : TimerStep loop (.cancelInLoop id) next) (inv : loop.Inv)
    (numbered : id.sequence ≤ loop.numCreated)
    (added : ∀ located, loop.queue.Live located → located.id = id →
      located.address ∉ loop.pending) :
    next.Ended id ∧ (next.Waiting id ↔ loop.Waiting id) := by
  cases step with
  | @cancelHeld held calls holds =>
      have dead : ∀ located, (loop.queue.drop held).Live located →
          located.id ≠ held.id := by
        intro located alive same
        exact (TimerQueue.live_drop.mp alive).1 (congrArg TimerId.timer same)
      refine ⟨.of_dead numbered dead, iff_of_false ?_ ?_⟩
      · rintro ⟨located, alive, same, _⟩
        exact dead located alive same
      · rintro ⟨located, live, same, later⟩
        rw [TimerQueue.Live.eq_of_id live holds.1 same] at later
        exact inv.apart_batch (Phase.unrun_subset later) _ holds.2 rfl
  | cancelCalling calls absent calling =>
      refine ⟨⟨numbered, added, ?_, ?_⟩, Iff.rfl⟩
      · intro located live same held
        exact absent located ⟨live, held⟩ same
      · intro located live same repeats
        exact OrderedSet.mem_insert.mpr (.inl rfl)
  | cancelIdle absent idle =>
      have dead : ∀ located, loop.queue.Live located → located.id ≠ id := by
        intro located live same
        rcases inv.held_once live (added located live same) with
          ⟨held, _⟩ | ⟨_, busy, _⟩
        · exact absent located ⟨live, held⟩ same
        · exact busy idle
      exact ⟨.of_dead numbered dead, Iff.rfl⟩

end TimerLoop

section Runs

variable {mayMove : Timestamp → Timestamp → Prop} {clock : Timestamp}
variable {actions : List TimerAction} {loop next later : TimerLoop}
variable {id : TimerId}

/-- A run from a loop where a timer is ended and does not wait in the batch never
starts its callback. -/
theorem TimerLoop.Ended.silent (ended : next.Ended id) (inv : next.Inv)
    (idle : ¬ next.Waiting id)
    (runs : (timerMachine mayMove).Run next actions later) :
    ∃ events, later.history = next.history ++ events ∧
      ∀ located ∈ ranOf events, located.id ≠ id := by
  have kept := inv.keeps
    (fun loop => loop.Ended id ∧ ¬ loop.Waiting id ∧
      ∃ events, loop.history = next.history ++ events ∧
        ∀ located ∈ ranOf events, located.id ≠ id)
    ⟨ended, idle, [], (List.append_nil _).symm, nofun⟩ ?_ runs
  · exact kept.2.2.2
  · intro loop action after inv step holds
    obtain ⟨ended, idle, events, history, silent⟩ := holds
    refine ⟨step.ended inv ended,
      fun waiting => idle (step.waiting inv ended waiting), ?_⟩
    obtain ⟨last, grown, waiting⟩ := step.history
    refine ⟨events ++ last, ?_, ?_⟩
    · rw [grown, history, List.append_assoc]
    · intro located member same
      rw [ranOf, List.filterMap_append] at member
      rcases List.mem_append.mp member with before | now
      · exact silent located before same
      · exact idle (same ▸ waiting located now)

theorem TimerLoop.runs_to (mayMove : Timestamp → Timestamp → Prop)
    (inv : loop.Inv) {now : Timestamp} {ran front back : List Entry}
    {located : Located}
    (phase : loop.phase = .calling now ran (front ++ located.entry :: back))
    (live : loop.queue.Live located) :
    ∃ actions later events, (timerMachine mayMove).Run loop actions later ∧
      later.history = loop.history ++ events ∧ located ∈ ranOf events := by
  induction front generalizing loop ran with
  | nil =>
      have callback : loop.Enabled mayMove .runCallback := by
        show loop.phase.hasCallback = true
        rw [phase]
        rfl
      obtain ⟨next, stepped, step⟩ := inv.step callback
      cases step with
      | @run _ _ _ first here alive =>
          obtain ⟨_, _, rest⟩ := Phase.calling.inj (phase.symm.trans here)
          have same : located = first :=
            TimerQueue.Live.eq_of_entry live alive (List.cons.inj rest).1
          refine ⟨[.runCallback], _, [.ran first _],
            .head .refl callback stepped, rfl, ?_⟩
          simp [ranOf, TimerEvent.ran?, same]
  | cons entry front induction =>
      have callback : loop.Enabled mayMove .runCallback := by
        show loop.phase.hasCallback = true
        rw [phase]
        rfl
      obtain ⟨next, stepped, step⟩ := inv.step callback
      have after := step.inv inv
      cases step with
      | @run now' ran' remaining first here alive =>
          obtain ⟨sameNow, sameRan, rest⟩ :=
            Phase.calling.inj (phase.symm.trans here)
          obtain ⟨_, others⟩ := List.cons.inj rest
          have phaseNext : Phase.calling now' (ran' ++ [first.entry])
              remaining = .calling now (ran' ++ [first.entry])
                (front ++ located.entry :: back) := by
            rw [sameNow, ← others]
            rfl
          obtain ⟨actions, later, events, runs, history, member⟩ :=
            induction after phaseNext live
          refine ⟨.runCallback :: actions, later, [.ran first now'] ++ events,
            runs.head callback stepped, ?_, ?_⟩
          · rw [history, List.append_assoc]
          · rw [ranOf, List.filterMap_append]
            exact List.mem_append_right _ member

/-- Once a cancel was executed for a timer that was added, its callback never
starts again, if and only if the timer did not wait in the rest of the batch of
expired timers when the cancel was executed. -/
theorem cancelled_never_runs
    (runs : (timerMachine mayMove).Run (.new clock) actions loop)
    (inserted : ∃ located, .added located ∈ loop.history ∧ located.id = id)
    (enabled : loop.Enabled mayMove (.cancelInLoop id))
    (stepped : loop.step (.cancelInLoop id) = .ok next) :
    (∀ actions later events, (timerMachine mayMove).Run next actions later →
      later.history = next.history ++ events →
      ∀ located ∈ ranOf events, located.id ≠ id) ↔
    ¬ loop.Waiting id := by
  have inv := run_inv runs
  have allowed : (timerMachine mayMove).enabled loop (.cancelInLoop id) :=
    enabled
  have step := inv.stepped allowed stepped
  have afterInv := step.inv inv
  obtain ⟨added, member, rfl⟩ := inserted
  have kept : loop.Inserted := run_keeps (TimerLoop.inserted_new clock)
    (fun inv step inserted => step.inserted inv inserted) runs
  obtain ⟨numbered, apart⟩ := kept added member
  obtain ⟨ended, waits⟩ := step.ended_of_cancel inv numbered apart
  rw [← waits]
  constructor
  · intro never waiting
    obtain ⟨located, live, same, inRest⟩ := waiting
    cases phase : next.phase with
    | idle =>
        rw [phase] at inRest
        cases inRest
    | calling now ran remaining =>
        rw [phase] at inRest
        obtain ⟨front, back, split⟩ := List.append_of_mem inRest
        have split : remaining = front ++ located.entry :: back := split
        rw [split] at phase
        obtain ⟨actions, later, events, runsOn, history, ran⟩ :=
          TimerLoop.runs_to mayMove afterInv phase live
        exact never actions later events runsOn history located ran same
    | resetting now remaining =>
        rw [phase] at inRest
        cases inRest
  · intro idle actions later events runsOn history located ran
    obtain ⟨others, grown, silent⟩ := ended.silent afterInv idle runsOn
    obtain rfl := List.append_cancel_left (history.symm.trans grown)
    exact silent located ran

/-- A repeating timer cancels itself in its callback. -/
theorem cancelled_never_runs_own :
    ∃ (actions : List TimerAction) (loop next : TimerLoop),
      (timerMachine (· ≤ ·)).Run (.new 10) actions loop ∧
      loop.step (.cancelInLoop ⟨7, 1⟩) = .ok next ∧
      ∀ actions later events, (timerMachine (· ≤ ·)).Run next actions later →
        later.history = next.history ++ events →
        ∀ located ∈ ranOf events, located.id ≠ ⟨7, 1⟩ := by
  have found : ((timerMachine (· ≤ ·)).execute (.new 10)
      [.create 7 20 ⟨true, 5, by decide⟩, .addTimerInLoop 7, .setClock 20,
        .startCalling, .runCallback]).any
      (fun loop => loop.phase = .calling 20 [⟨20, 7⟩] [] ∧
        .added ⟨7, .new 20 ⟨true, 5, by decide⟩ 1⟩ ∈ loop.history) =
      true := by
    decide +kernel
  obtain ⟨loop, runs, accepted⟩ := Machine.run_of_execute found
  obtain ⟨phase, added⟩ := of_decide_eq_true accepted
  have enabled : loop.Enabled (· ≤ ·) (.cancelInLoop ⟨7, 1⟩) := by
    show loop.phase.CallsQueue
    rw [phase]
    simp [Phase.CallsQueue]
  obtain ⟨next, stepped, _⟩ := (run_inv runs).step enabled
  have served : ¬ loop.Waiting ⟨7, 1⟩ := by
    rintro ⟨located, _, _, later⟩
    rw [phase] at later
    cases later
  exact ⟨_, loop, next, runs, stepped,
    (cancelled_never_runs runs ⟨_, added, rfl⟩ enabled stepped).mpr served⟩

/-- Two timers expire together, and the callback of the first one cancels the
second, which runs all the same. -/
theorem cancelled_runs :
    ∃ (actions : List TimerAction) (loop : TimerLoop) (first second : Located),
      (timerMachine (· ≤ ·)).Run (.new 10) actions loop ∧
      loop.history = [.added first, .added second, .ran first 20,
        .cancelled second.id, .ran second 20] := by
  let first : Located := ⟨7, .new 20 ⟨false, 0, by decide⟩ 1⟩
  let second : Located := ⟨8, .new 20 ⟨false, 0, by decide⟩ 2⟩
  have found : ((timerMachine (· ≤ ·)).execute (.new 10)
      [.create 7 20 ⟨false, 0, by decide⟩, .addTimerInLoop 7,
        .create 8 20 ⟨false, 0, by decide⟩, .addTimerInLoop 8, .setClock 20,
        .startCalling, .runCallback, .cancelInLoop ⟨8, 2⟩, .runCallback]).any
      (fun loop => loop.history = [.added first, .added second,
        .ran first 20, .cancelled second.id, .ran second 20]) = true := by
    decide +kernel
  obtain ⟨loop, runs, accepted⟩ := Machine.run_of_execute found
  exact ⟨_, loop, first, second, runs, of_decide_eq_true accepted⟩

end Runs

end Muduo
