import Muduo.Net.LinkSteps

/-!
# Who keeps a link alive

A frame that uses the link needs a copy of its pointer somewhere.  A copy is lost
only where one goes out of scope; so these steps, and the start of a functor
when there is none, decide whether a frame is ever left without.
-/

namespace Muduo

open Library

namespace LinkLoop

open LinkedSocket

variable {loop next : LinkLoop} {frame : Frame}

/-- The functors that have still to start. -/
def waiting (loop : LinkLoop) : List LinkFunctor :=
  match loop.functors with
  | some (_, remaining) => remaining ++ loop.pendingFunctors
  | none => loop.pendingFunctors

/-- How often the link has still to be registered. -/
def unprepared (loop : LinkLoop) : Nat :=
  loop.stack.countP Frame.isPrepare +
    loop.waiting.countP fun functor => functor.frame.isPrepare

/-- An open link is in the map, and only an open link is in the poller; so a
link whose events are to be handled is in the map. -/
structure Inv (loop : LinkLoop) : Prop where
  map_of_open : loop.link.state ≠ .kDisconnected → loop.inMap = true
  deleted_of_closed : loop.link.state = .kDisconnected →
    loop.link.handler.stateInPoll = .Deleted
  closed_of_frame : ∀ frame ∈ loop.stack, frame.isDelConnection = true →
    loop.link.state = .kDisconnected
  prepare_once : loop.unprepared ≤ 1
  prepare_fresh : loop.unprepared = 1 →
    loop.link.handler.stateInPoll = .New
  active_map : loop.active = true → loop.inMap = true
  active_calm : loop.active = true → ∀ frame ∈ loop.stack,
    frame.closes = false
  functors_calm : loop.functors ≠ none → loop.active = false

theorem Inv.keep (inv : loop.Inv)
    (state : next.link.state = .kDisconnected ↔
      loop.link.state = .kDisconnected)
    (poll : next.link.handler.stateInPoll = loop.link.handler.stateInPoll ∨
      loop.link.handler.stateInPoll = .Added)
    (map : next.inMap = loop.inMap)
    (active : next.active = true → loop.active = true)
    (frames : ∀ frame ∈ next.stack, frame.isDelConnection = true →
      frame ∈ loop.stack)
    (calm : next.active = true → ∀ frame ∈ next.stack,
      frame.closes = true → ∃ other ∈ loop.stack, other.closes = true)
    (unprepared : next.unprepared ≤ loop.unprepared)
    (functors : next.functors ≠ none → next.active = false) : next.Inv := by
  constructor
  · intro opened
    rw [map]
    exact inv.map_of_open fun closed => opened (state.mpr closed)
  · intro closed
    have deleted := inv.deleted_of_closed (state.mp closed)
    rcases poll with same | added
    · exact same.trans deleted
    · cases deleted.symm.trans added
  · intro frame member deletes
    exact state.mpr
      (inv.closed_of_frame frame (frames frame member deletes) deletes)
  · exact Nat.le_trans unprepared inv.prepare_once
  · intro once
    have before : loop.unprepared = 1 :=
      Nat.le_antisymm inv.prepare_once (once ▸ unprepared)
    have fresh := inv.prepare_fresh before
    rcases poll with same | added
    · exact same.trans fresh
    · cases fresh.symm.trans added
  · intro reported
    rw [map]
    exact inv.active_map (active reported)
  · intro reported frame member
    by_contra closes
    rw [Bool.not_eq_false] at closes
    obtain ⟨other, inside, closesToo⟩ := calm reported frame member closes
    have quiet := inv.active_calm (active reported) other inside
    cases quiet.symm.trans closesToo
  · exact functors

/-- A frame that closes the link only runs when nothing is reported. -/
theorem Inv.idle_of_closes (inv : loop.Inv) (member : frame ∈ loop.stack)
    (closes : frame.closes = true) : loop.active = false := by
  by_contra reported
  rw [Bool.not_eq_false] at reported
  cases (inv.active_calm reported frame member).symm.trans closes

theorem countP_follows {frames : List Frame} (allowed : follows frame frames = true) :
    frames.countP Frame.isPrepare = 0 := by
  apply List.countP_eq_zero.mpr
  intro pushed member
  rw [(of_follows allowed member).1]
  exact Bool.false_ne_true

theorem unprepared_top {stack frames : List Frame}
    (top : loop.stack = frame :: stack)
    (fresh : frames.countP Frame.isPrepare = 0) (link : LinkedSocket Unit)
    (reads : List (Except Errno (List Byte))) (inMap : Bool) :
    unprepared ({ loop with link, reads, inMap, stack }.call frames) +
      [frame].countP Frame.isPrepare = loop.unprepared := by
  simp only [unprepared, waiting, call, top, List.countP_append, fresh,
    List.countP_cons, List.countP_nil]
  omega

/-- A link that the poller has seen is not registered again. -/
theorem Inv.unprepared_eq_zero (inv : loop.Inv)
    (seen : loop.link.handler.stateInPoll ≠ .New) : loop.unprepared = 0 := by
  have once := inv.prepare_once
  have fresh : loop.unprepared ≠ 1 := fun one => seen (inv.prepare_fresh one)
  omega

theorem inv_of_closed (closed : loop.link.state = .kDisconnected)
    (deleted : loop.link.handler.stateInPoll = .Deleted)
    (none : loop.unprepared = 0) (idle : loop.active = false) :
    loop.Inv := by
  constructor
  · intro opened
    exact (opened closed).elim
  · intro _
    exact deleted
  · intro _ _ _
    exact closed
  · rw [none]
    exact Nat.zero_le 1
  · intro once
    cases none.symm.trans once
  · intro reported
    cases idle.symm.trans reported
  · intro reported
    cases idle.symm.trans reported
  · intro _
    exact idle

theorem Inv.turn (inv : loop.Inv) {stack : List Frame}
    (top : loop.stack = frame :: stack)
    (turn : Turn { loop with stack } frame next) : next.Inv := by
  have member : frame ∈ loop.stack := by simp [top]
  have older : ∀ other ∈ stack, other ∈ loop.stack := by
    intro other inside
    rw [top]
    exact List.mem_cons_of_mem _ inside
  cases turn with
  | @goes link reads frames undisturbed allowed other =>
      have state : link.state = loop.link.state := undisturbed.state_eq
      refine inv.keep (iff_of_eq (congrArg (· = _) state))
        undisturbed.poll_eq rfl id ?_ ?_ ?_ inv.functors_calm
      · intro pushed inside deletes
        rcases List.mem_append.mp inside with new | old
        · cases (of_follows allowed new).2.1.symm.trans deletes
        · exact older pushed old
      · intro _ pushed inside closes
        rcases List.mem_append.mp inside with new | old
        · exact ⟨frame, member, (of_follows allowed new).2.2 closes⟩
        · exact ⟨pushed, older pushed old, closes⟩
      · exact Nat.le.intro (unprepared_top top (countP_follows allowed) link
          reads loop.inMap)
  | @prepare link same prepared =>
      obtain ⟨state, added⟩ := prepare_eq prepared
      have registers : frame.isPrepare = true := by rw [same]; rfl
      have count := @unprepared_top loop frame stack [] top rfl link
        loop.reads loop.inMap
      rw [List.countP_singleton, if_pos registers] at count
      have once := inv.prepare_once
      have fresh := inv.prepare_fresh (by omega)
      have opened : loop.link.state ≠ .kDisconnected := by
        intro closed
        cases fresh.symm.trans (inv.deleted_of_closed closed)
      constructor
      · intro _
        exact inv.map_of_open opened
      · intro closed
        exact (opened (state.symm.trans closed)).elim
      · intro other inside deletes
        exact state.trans
          (inv.closed_of_frame other (older other inside) deletes)
      · exact Nat.le_trans (Nat.le.intro count) once
      · intro again
        have none : unprepared (setLink { loop with stack } link) + 1 =
            loop.unprepared := count
        omega
      · exact inv.active_map
      · intro reported other inside
        exact inv.active_calm reported other (older other inside)
      · exact inv.functors_calm
  | @handleClose link same closed =>
      obtain ⟨added, state, deleted⟩ := startClose_eq closed
      have idle := inv.idle_of_closes member (by rw [same]; rfl)
      have count := @unprepared_top loop frame stack [.delConnection] top rfl
        link loop.reads loop.inMap
      have none := inv.unprepared_eq_zero (by rw [added]; exact nofun)
      exact inv_of_closed state deleted (Nat.eq_zero_of_add_eq_zero
        (count.trans none)).1 idle
  | delConnection same =>
      have closed := inv.closed_of_frame frame member (by rw [same]; rfl)
      have deleted := inv.deleted_of_closed closed
      have idle := inv.idle_of_closes member (by rw [same]; rfl)
      have count := @unprepared_top loop frame stack [.scopeEnd] top rfl
        loop.link loop.reads false
      have none := inv.unprepared_eq_zero (by rw [deleted]; exact nofun)
      exact inv_of_closed closed deleted (Nat.eq_zero_of_add_eq_zero
        (count.trans none)).1 idle

theorem unprepared_call {frames : List Frame}
    (fresh : frames.countP Frame.isPrepare = 0) :
    (loop.call frames).unprepared = loop.unprepared := by
  simp only [unprepared, waiting, call, List.countP_append, fresh]
  omega

theorem unprepared_queueInLoop {functor : LinkFunctor}
    (fresh : functor.frame.isPrepare = false) :
    (loop.queueInLoop functor).unprepared = loop.unprepared := by
  simp only [unprepared, waiting, queueInLoop]
  split <;> simp [fresh]

theorem Inv.userCall (inv : loop.Inv) (call : UserCall loop next) :
    next.Inv := by
  cases call with
  | ignored => exact inv
  | @called link frame callback stays fresh calm =>
      have poll : link.handler.stateInPoll =
          loop.link.handler.stateInPoll := by rw [stays.handler_eq]
      refine inv.keep (iff_of_false stays.after stays.before) (.inl poll) rfl
        id ?_ ?_ ?_ inv.functors_calm
      · intro pushed inside deletes
        rcases List.mem_cons.mp inside with rfl | old
        · cases pushed with
          | delConnection => cases calm
          | _ => cases deletes
        · exact old
      · intro _ pushed inside closes
        rcases List.mem_cons.mp inside with rfl | old
        · cases calm.symm.trans closes
        · exact ⟨pushed, old, closes⟩
      · apply Nat.le_of_eq
        apply unprepared_call
        rw [List.countP_singleton, fresh]
        rfl
  | @queued link functor stays other =>
      have poll : link.handler.stateInPoll =
          loop.link.handler.stateInPoll := by rw [stays.handler_eq]
      have fresh : functor.frame.isPrepare = false := by
        cases functor with
        | prepare => exact (other rfl).elim
        | _ => rfl
      refine inv.keep (iff_of_false stays.after stays.before) (.inl poll) rfl
        id ?_ ?_ ?_ inv.functors_calm
      · intro pushed inside _
        exact inside
      · intro _ pushed inside closes
        exact ⟨pushed, inside, closes⟩
      · exact Nat.le_of_eq (unprepared_queueInLoop fresh)

/-- The invariant survives every step. -/
theorem LinkStep.inv {action : LinkAction}
    (step : LinkStep loop action next) (inv : loop.Inv) : next.Inv := by
  cases step with
  | poll empty none added =>
      have opened : loop.link.state ≠ .kDisconnected := by
        intro closed
        cases added.symm.trans (inv.deleted_of_closed closed)
      constructor
      · exact inv.map_of_open
      · exact inv.deleted_of_closed
      · exact inv.closed_of_frame
      · exact inv.prepare_once
      · exact inv.prepare_fresh
      · intro _
        exact inv.map_of_open opened
      · intro _ frame member
        have inside : frame ∈ loop.stack := member
        rw [empty] at inside
        cases inside
      · intro some
        exact (some none).elim
  | handleEvent empty reported =>
      refine inv.keep .rfl (.inl rfl) rfl (fun _ => reported) ?_ ?_
        (Nat.le_of_eq (unprepared_call rfl)) fun _ => rfl
      · intro frame member deletes
        rcases List.mem_append.mp member with new | old
        · obtain ⟨_, stays, _⟩ :=
            @of_follows .eventHangup _ frame rfl new
          cases stays.symm.trans deletes
        · exact old
      · intro active
        cases active
  | goesOn top uses turn => exact inv.turn top turn
  | @ends frame stack top unused =>
      have older : ∀ other ∈ stack, other ∈ loop.stack := by
        intro other inside
        rw [top]
        exact List.mem_cons_of_mem _ inside
      refine inv.keep .rfl (.inl rfl) rfl id ?_ ?_ ?_ inv.functors_calm
      · intro other inside _
        exact older other inside
      · intro _ other inside closes
        exact ⟨other, older other inside, closes⟩
      · exact Nat.le.intro (@unprepared_top loop frame stack [] top rfl
          loop.link loop.reads loop.inMap)
  | swapFunctors empty none idle =>
      refine inv.keep .rfl (.inl rfl) rfl id (fun _ inside _ => inside)
        (fun _ frame inside closes => ⟨frame, inside, closes⟩) ?_ fun _ => idle
      simp [unprepared, waiting, LinkLoop.swapFunctors, none]
  | @startFunctor ran remaining functor empty functors =>
      have idle := inv.functors_calm (by rw [functors]; exact nofun)
      refine inv.keep .rfl (.inl rfl) rfl id ?_ ?_ ?_ fun _ => idle
      · intro frame member deletes
        rcases List.mem_append.mp member with new | old
        · rw [List.mem_singleton.mp new] at deletes
          cases functor <;> cases deletes
        · exact old
      · intro reported
        cases idle.symm.trans reported
      · simp only [unprepared, waiting, call, functors, List.countP_append,
          List.countP_cons, List.countP_nil]
        omega
  | destroyFunctors empty functors =>
      refine inv.keep .rfl (.inl rfl) rfl id (fun _ inside _ => inside)
        (fun _ frame inside closes => ⟨frame, inside, closes⟩) ?_
        fun some => (some rfl).elim
      simp [unprepared, waiting, functors]
  | enter empty =>
      refine inv.keep .rfl (.inl rfl) rfl id ?_ ?_
        (Nat.le_of_eq (unprepared_call rfl)) inv.functors_calm
      · intro frame member deletes
        rcases List.mem_cons.mp member with rfl | old
        · cases deletes
        · exact old
      · intro _ frame member closes
        rcases List.mem_cons.mp member with rfl | old
        · cases closes
        · exact ⟨frame, old, closes⟩
  | copy =>
      exact inv.keep .rfl (.inl rfl) rfl id (fun _ inside _ => inside)
        (fun _ frame inside closes => ⟨frame, inside, closes⟩)
        (Nat.le_refl _) inv.functors_calm
  | release positive =>
      exact inv.keep .rfl (.inl rfl) rfl id (fun _ inside _ => inside)
        (fun _ frame inside closes => ⟨frame, inside, closes⟩)
        (Nat.le_refl _) inv.functors_calm
  | send call => exact inv.userCall call
  | shutdown call => exact inv.userCall call
  | forceClose call => exact inv.userCall call

/-- A frame that uses the link has a copy of its pointer somewhere. -/
def Held (loop : LinkLoop) : Prop :=
  ∀ frame ∈ loop.stack, frame.usesLink = true → 0 < loop.refCount

/-- The step does not destroy the last copy inside a function of the link, nor
start a functor when there is none. -/
def Guarded (loop : LinkLoop) : LinkAction → Prop
  | .exec =>
      match loop.stack with
      | [] => True
      | frame :: stack => frame.usesLink = true ∨ 1 < loop.refCount ∨
          ∀ other ∈ stack, other.usesLink = false
  | .release => 1 < loop.refCount ∨
      ∀ frame ∈ loop.stack, frame.usesLink = false
  | .startFunctor => 0 < loop.refCount
  | _ => True

theorem refCount_call (loop : LinkLoop) (frames : List Frame) :
    (loop.call frames).refCount =
      (frames.map Frame.copies).sum + loop.refCount := by
  simp only [refCount, call, bound, List.map_append, List.sum_append]
  omega

theorem refCount_top {stack : List Frame}
    (top : loop.stack = frame :: stack) :
    loop.refCount = frame.copies + refCount { loop with stack } := by
  simp only [refCount, bound, top, List.map_cons, List.sum_cons]
  omega

theorem refCount_queueInLoop (loop : LinkLoop) (functor : LinkFunctor) :
    (loop.queueInLoop functor).refCount =
      functor.copies + loop.refCount := by
  have copies : ((loop.queueInLoop functor).bound.map
      LinkFunctor.copies).sum =
        functor.copies + (loop.bound.map LinkFunctor.copies).sum := by
    simp only [bound, queueInLoop]
    split <;> simp <;> omega
  simp only [refCount, copies]
  simp only [queueInLoop]
  omega

theorem refCount_pos_of_inCallback (callback : loop.inCallback = true) :
    0 < loop.refCount := by
  cases stack : loop.stack with
  | nil => simp [inCallback, stack] at callback
  | cons frame rest =>
      have top : frame.isCallback = true := by
        simpa [inCallback, stack] using callback
      have copy : frame.copies = 1 := by
        cases frame with
        | callback => rfl
        | _ => cases top
      rw [refCount_top stack, copy]
      omega

theorem copies_of_uses (uses : frame.usesLink = true)
    (other : frame.isDelConnection = false) : frame.copies = 0 := by
  cases frame with
  | delConnection => cases other
  | scopeEnd => cases uses
  | callback => cases uses
  | _ => rfl

theorem copies_of_unused (unused : frame.usesLink = false) :
    frame.copies = 1 := by
  cases frame with
  | scopeEnd => rfl
  | callback => rfl
  | _ => cases unused

/-- A turn of a frame that uses the link keeps a copy of the pointer. -/
theorem Turn.refCount_pos {stack : List Frame}
    (top : loop.stack = frame :: stack) (uses : frame.usesLink = true)
    (turn : Turn { loop with stack } frame next)
    (positive : 0 < loop.refCount) : 0 < next.refCount := by
  rw [refCount_top top] at positive
  cases turn with
  | @goes link reads frames undisturbed allowed other =>
      rw [copies_of_uses uses other, Nat.zero_add] at positive
      rw [refCount_call]
      exact Nat.lt_of_lt_of_le positive (Nat.le_add_left _ _)
  | prepare same prepared =>
      rw [same, show Frame.copies .prepare = 0 from rfl, Nat.zero_add]
        at positive
      exact positive
  | handleClose same closed =>
      rw [refCount_call]
      exact Nat.lt_of_lt_of_le Nat.zero_lt_one (Nat.le_add_right _ _)
  | delConnection same =>
      rw [refCount_call]
      exact Nat.lt_of_lt_of_le Nat.zero_lt_one (Nat.le_add_right _ _)

theorem held_of_pos (positive : 0 < loop.refCount) : loop.Held :=
  fun _ _ _ => positive

theorem held_of_idle (empty : loop.stack = []) : loop.Held := by
  intro frame member
  rw [empty] at member
  cases member

theorem Held.userCall (held : loop.Held) (call : UserCall loop next) :
    next.Held := by
  cases call with
  | ignored => exact held
  | @called link frame callback stays fresh calm =>
      apply held_of_pos
      rw [refCount_call]
      exact Nat.lt_of_lt_of_le (refCount_pos_of_inCallback callback)
        (Nat.le_add_left _ _)
  | @queued link functor stays other =>
      intro frame member uses
      rw [refCount_queueInLoop]
      exact Nat.lt_of_lt_of_le (held frame member uses)
        (Nat.le_add_left _ _)

/-- Where a copy is destroyed, another one is left or no frame needs one. -/
theorem held_iff_of_drop (dropped : loop.refCount = 1 + next.refCount) :
    next.Held ↔ 1 < loop.refCount ∨
      ∀ frame ∈ next.stack, frame.usesLink = false := by
  constructor
  · intro held
    by_cases another : 1 < loop.refCount
    · exact .inl another
    · right
      intro frame member
      by_contra uses
      rw [Bool.not_eq_false] at uses
      have positive := held frame member uses
      omega
  · intro either frame member uses
    rcases either with another | unused
    · omega
    · cases (unused frame member).symm.trans uses

theorem uses_frame (functor : LinkFunctor) :
    functor.frame.usesLink = true ∧ functor.frame.copies = 0 := by
  cases functor <;> exact ⟨rfl, rfl⟩

/-- Exactly the guarded steps leave every frame with a copy. -/
theorem LinkStep.held_iff {action : LinkAction}
    (step : LinkStep loop action next) (inv : loop.Inv) (held : loop.Held) :
    next.Held ↔ loop.Guarded action := by
  cases step with
  | poll empty none added =>
      exact iff_of_true (held_of_idle empty) trivial
  | handleEvent empty reported =>
      refine iff_of_true (held_of_pos ?_) trivial
      have map := inv.active_map reported
      simp only [refCount, LinkLoop.handleEvent, call, map, Bool.toNat_true]
      omega
  | @goesOn frame stack _ top uses turn =>
      refine iff_of_true (held_of_pos ?_) ?_
      · exact turn.refCount_pos top uses
          (held frame (by simp [top]) uses)
      · simp only [Guarded, top]
        exact .inl uses
  | @ends frame stack top unused =>
      have dropped := refCount_top top
      rw [copies_of_unused unused] at dropped
      rw [held_iff_of_drop dropped, Guarded, top]
      simp only [unused, Bool.false_eq_true, false_or]
  | swapFunctors empty none idle =>
      exact iff_of_true (held_of_idle empty) trivial
  | @startFunctor ran remaining functor empty functors =>
      obtain ⟨uses, none⟩ := uses_frame functor
      have same : refCount ({ loop with
          functors := some (ran ++ [functor], remaining) }.call
            [functor.frame]) = loop.refCount := by
        simp [refCount, call, bound, functors, none]
      constructor
      · intro held
        have positive := held functor.frame List.mem_cons_self uses
        rw [same] at positive
        exact positive
      · intro positive
        exact held_of_pos (same ▸ positive)
  | destroyFunctors empty functors =>
      exact iff_of_true (held_of_idle empty) trivial
  | enter empty =>
      refine iff_of_true (held_of_pos ?_) trivial
      rw [refCount_call]
      exact Nat.lt_of_lt_of_le Nat.zero_lt_one (Nat.le_add_right _ _)
  | copy =>
      refine iff_of_true (held_of_pos ?_) trivial
      simp only [refCount]
      omega
  | release positive =>
      apply held_iff_of_drop
      simp only [refCount, bound]
      omega
  | send call => exact iff_of_true (held.userCall call) trivial
  | shutdown call => exact iff_of_true (held.userCall call) trivial
  | forceClose call => exact iff_of_true (held.userCall call) trivial

section Start

variable (fd : Int) (highWaterMark : Nat) (kernel : Kernel)
variable (reads : List (Except Errno (List Byte))) (inLoop : Bool)

theorem newConnection_inv :
    (newConnection (.new fd highWaterMark kernel) reads inLoop).Inv := by
  have once : (newConnection (.new fd highWaterMark kernel) reads
      inLoop).unprepared = 1 := by
    cases inLoop <;> rfl
  constructor
  · intro _
    rfl
  · intro closed
    cases closed
  · intro frame member deletes
    cases inLoop with
    | true =>
        simp only [newConnection, if_true, List.mem_cons, List.not_mem_nil,
          or_false] at member
        rcases member with rfl | rfl | rfl <;> cases deletes
    | false => cases member
  · exact Nat.le_of_eq once
  · intro _
    rfl
  · intro reported
    cases reported
  · intro reported
    cases reported
  · intro some
    exact (some rfl).elim

theorem newConnection_held :
    (newConnection (.new fd highWaterMark kernel) reads inLoop).Held := by
  apply held_of_pos
  simp only [refCount, newConnection, Bool.toNat_true]
  omega

end Start

end LinkLoop

section Runs

variable {fd : Int} {highWaterMark : Nat} {kernel : Kernel}
variable {reads : List (Except Errno (List Byte))} {inLoop : Bool}
variable {actions : List LinkAction} {loop : LinkLoop}

/-- In a run of a link, whatever events come, whatever the kernel answers and
whatever users do, every frame that uses the link has a copy of its pointer all
along exactly if every step is guarded. -/
theorem link_held_iff
    (runs : linkMachine.Run
      (.newConnection (.new fd highWaterMark kernel) reads inLoop)
      actions loop) :
    (∀ first second middle, actions = first ++ second →
      linkMachine.Run
        (.newConnection (.new fd highWaterMark kernel) reads inLoop)
        first middle → middle.Held) ↔
    (linkMachine.restrict LinkLoop.Guarded).Run
      (.newConnection (.new fd highWaterMark kernel) reads inLoop)
      actions loop := by
  apply Machine.Run.always_iff_restrict
    (LinkLoop.newConnection_inv fd highWaterMark kernel reads inLoop)
    (LinkLoop.newConnection_held fd highWaterMark kernel reads inLoop) ?_ ?_
    runs
  · intro loop action next inv enabled stepped
    exact (LinkLoop.linkStep_of_step enabled stepped).inv inv
  · intro loop action next inv held enabled stepped
    exact (LinkLoop.linkStep_of_step enabled stepped).held_iff inv held

instance (loop : LinkLoop) (action : LinkAction) :
    Decidable (linkMachine.enabled loop action) :=
  inferInstanceAs (Decidable (loop.Enabled action))

instance (loop : LinkLoop) : Decidable loop.Held :=
  inferInstanceAs (Decidable (∀ frame ∈ loop.stack,
    frame.usesLink = true → 0 < loop.refCount))

instance (loop : LinkLoop) (action : LinkAction) :
    Decidable (loop.Guarded action) :=
  match action with
  | .exec =>
      match same : loop.stack with
      | [] => .isTrue (by simp only [LinkLoop.Guarded, same])
      | frame :: stack => decidable_of_iff (frame.usesLink = true ∨
          1 < loop.refCount ∨ ∀ other ∈ stack, other.usesLink = false)
          (by simp only [LinkLoop.Guarded, same])
  | .release => inferInstanceAs (Decidable (1 < loop.refCount ∨
      ∀ frame ∈ loop.stack, frame.usesLink = false))
  | .startFunctor => inferInstanceAs (Decidable (0 < loop.refCount))
  | .poll _ | .handleEvent | .swapFunctors | .destroyFunctors | .enter
  | .copy | .send _ _ | .shutdown _ | .forceClose _ => .isTrue trivial

instance (loop : LinkLoop) (action : LinkAction) :
    Decidable ((linkMachine.restrict LinkLoop.Guarded).enabled loop action) :=
  inferInstanceAs (Decidable (linkMachine.enabled loop action ∧
    loop.Guarded action))

/-- A user keeps a copy while the peer closes and until a functor that it
queued has run. -/
theorem link_held_iff_kept :
    ∃ actions loop, linkMachine.Run
        (.newConnection (.new 5 65536 ⟨[], []⟩) [.ok [120], .ok []] false)
        actions loop ∧
      loop.refCount = 0 ∧
      ∀ first second middle, actions = first ++ second →
        linkMachine.Run
          (.newConnection (.new 5 65536 ⟨[], []⟩) [.ok [120], .ok []] false)
          first middle → middle.Held := by
  have found : ((linkMachine.restrict LinkLoop.Guarded).execute
      (.newConnection (.new 5 65536 ⟨[], []⟩) [.ok [120], .ok []] false)
      [.swapFunctors, .startFunctor, .exec, .destroyFunctors, .poll POLLIN,
        .handleEvent, .exec, .exec, .exec, .exec, .copy, .exec, .exec,
        .release, .send false [121], .poll POLLIN, .handleEvent, .exec, .exec,
        .exec, .exec, .exec, .exec, .exec, .exec, .swapFunctors,
        .startFunctor, .exec, .destroyFunctors, .release]).any
      (fun loop => loop.refCount = 0) = true := by
    decide +kernel
  obtain ⟨loop, guarded, accepted⟩ := Machine.run_of_execute found
  have runs := guarded.of_restrict
  exact ⟨_, loop, runs, of_decide_eq_true accepted,
    (link_held_iff runs).mpr guarded⟩

/-- The peer closes a connection that only the map holds: `handleEvent` goes on
with a link that is destroyed. -/
theorem link_destroyed_at_close :
    ∃ loop, linkMachine.Run
        (.newConnection (.new 5 65536 ⟨[], []⟩) [.ok []] true)
        [.exec, .exec, .exec, .poll POLLIN, .handleEvent, .exec, .exec,
          .exec, .exec, .exec, .exec, .exec] loop ∧
      ¬ loop.Held := by
  have found : (linkMachine.execute
      (.newConnection (.new 5 65536 ⟨[], []⟩) [.ok []] true)
      [.exec, .exec, .exec, .poll POLLIN, .handleEvent, .exec, .exec,
        .exec, .exec, .exec, .exec, .exec]).any
      (fun loop => ¬ loop.Held) = true := by
    decide +kernel
  obtain ⟨loop, runs, accepted⟩ := Machine.run_of_execute found
  exact ⟨loop, runs, of_decide_eq_true accepted⟩

end Runs

end Muduo
