import Muduo.Net.HalfClose
import Muduo.Net.SharedSteps

/-!
# Half-closes in order

A functor of `shutdown` is queued behind those of the sends that have returned,
and runs after them.  The loop thread's own `shutdown` and the end of a write
event do not wait for queued functors; they half-close in order where they find
none that matters.
-/

namespace Muduo

open Library

namespace SharedLink

variable {shared next : SharedLink} {action : SharedAction}

/-- No byte of a message that is due is with a frame or with a functor. -/
def Clear (shared : SharedLink) : Prop :=
  ∀ number ∈ shared.due,
    (∀ portion ∈ shared.frames, part number portion.bytes = []) ∧
      ∀ pair ∈ shared.queued, part number pair.2 = []

/-- The link is not half-closed ahead of functors, and not once it is closed: the
loop thread's `shutdown` and the end of a write event find output queued, which
puts the half-close off, or all messages that are due out of frames and functors;
`shutdownInLoop` finds the link open, and so does `shutdown` when it sets the
state. -/
def InOrder (shared : SharedLink) : SharedAction → Prop
  | .loop .exec =>
      match shared.loop.stack with
      | .handleWriteEnd :: _ => shared.loop.link.state = .kDisconnecting →
          shared.loop.link.isWriting = true ∨ shared.Clear
      | .shutdownInLoop :: _ => shared.loop.link.state ≠ .kDisconnected
      | _ => True
  | .setDisconnecting inLoop =>
      shared.loop.link.state ≠ .kDisconnected ∧
        (inLoop = true →
          shared.loop.link.isWriting = true ∨ shared.Clear)
  | _ => True

theorem InOrder.deferred {stack : List Frame}
    (order : shared.InOrder (.loop .exec))
    (top : shared.loop.stack = .handleWriteEnd :: stack) :
    shared.loop.link.state = .kDisconnecting →
      shared.loop.link.isWriting = true ∨ shared.Clear := by
  simpa only [InOrder, top] using order

theorem InOrder.opened {stack : List Frame}
    (order : shared.InOrder (.loop .exec))
    (top : shared.loop.stack = .shutdownInLoop :: stack) :
    shared.loop.link.state ≠ .kDisconnected := by
  simpa only [InOrder, top] using order

section Numbers

/-- Every byte has the number of a message, those of a call that has still to
queue its functor that of its message, which is not due. -/
structure Numbered (shared : SharedLink) : Prop where
  byte_lt : ∀ byte ∈ shared.handed ++ shared.outside,
    byte.1 < shared.messages.length
  due_lt : ∀ number ∈ shared.due, number < shared.messages.length
  started : ∀ portion ∈ shared.started, ∃ number,
    portion.caller = some number ∧ number < shared.messages.length ∧
      number ∉ shared.due ∧ ∀ byte ∈ portion.bytes, byte.1 = number
  apart : shared.started.Pairwise fun first second =>
    first.caller ≠ second.caller

theorem Conserved.mem (conserved : shared.Conserved next)
    {byte : Nat × Byte} (member : byte ∈ next.handed ++ next.outside) :
    byte ∈ shared.handed ++ shared.outside :=
  conserved.whole_eq ▸ member

theorem Dropped.mem (dropped : shared.Dropped next)
    {byte : Nat × Byte} (member : byte ∈ next.handed ++ next.outside) :
    byte ∈ shared.handed ++ shared.outside := by
  rw [dropped.handed_eq] at member
  exact (dropped.outside_sublist.append_left _).subset member

theorem Numbered.stays (numbered : shared.Numbered)
    (stays : Stays shared next)
    (kept : ∀ byte ∈ next.handed ++ next.outside,
      byte ∈ shared.handed ++ shared.outside) : next.Numbered := by
  obtain ⟨messages, due, started, _, _⟩ := stays
  constructor
  · intro byte member
    rw [messages]
    exact numbered.byte_lt byte (kept byte member)
  · rw [messages, due]
    exact numbered.due_lt
  · rw [messages, due, started]
    exact numbered.started
  · rw [started]
    exact numbered.apart

theorem Numbered.turn (numbered : shared.Numbered) (mirrors : shared.Mirrors)
    {frame : Frame} {stack : List Frame} {loop : LinkLoop}
    (top : shared.loop.stack = frame :: stack)
    (ran : LinkLoop.run { shared.loop with stack } frame = .ok loop) :
    (shared.turn loop).Numbered := by
  apply numbered.stays (shared.turn_stays loop)
  intro byte member
  rcases (mirrors.turn top ran).2 with conserved | ⟨dropped, _⟩
  · exact conserved.mem member
  · exact dropped.mem member

theorem lt_send {shared : SharedLink} {message : List Byte} {number : Nat}
    (old : number < shared.messages.length) :
    number < (shared.messages ++ [message]).length := by
  rw [List.length_append]
  exact Nat.lt_add_right _ old

theorem Numbered.startSend (numbered : shared.Numbered)
    (message : List Byte) : (shared.startSend message).Numbered := by
  have bytes : (shared.startSend message).handed ++
      (shared.startSend message).outside =
      shared.handed ++ shared.outside ++
        labelled shared.messages.length message := by
    simp [SharedLink.startSend, outside]
  constructor
  · intro byte member
    rw [bytes] at member
    rcases List.mem_append.mp member with old | new
    · exact lt_send (numbered.byte_lt byte old)
    · rw [fst_of_mem_labelled new]
      simp [SharedLink.startSend]
  · intro number member
    exact lt_send (numbered.due_lt number member)
  · intro portion member
    rcases List.mem_append.mp member with old | new
    · obtain ⟨number, caller, before, later, own⟩ :=
        numbered.started portion old
      exact ⟨number, caller, lt_send before, later, own⟩
    · rw [List.mem_singleton.mp new]
      refine ⟨shared.messages.length, rfl, ?_, ?_, ?_⟩
      · simp [SharedLink.startSend]
      · intro due
        exact Nat.lt_irrefl _ (numbered.due_lt _ due)
      · intro byte member
        exact fst_of_mem_labelled member
  · apply List.pairwise_append.mpr
    refine ⟨numbered.apart, by simp, ?_⟩
    intro portion old other new
    obtain ⟨number, caller, before, _⟩ := numbered.started portion old
    rw [List.mem_singleton.mp new, caller]
    intro same
    exact Nat.ne_of_lt before (Option.some.inj same)

theorem Numbered.sendInLoop (numbered : shared.Numbered)
    (message : List Byte) : (shared.sendInLoop message).Numbered := by
  have bytes (byte : Nat × Byte)
      (member : byte ∈ (shared.sendInLoop message).handed ++
        (shared.sendInLoop message).outside) :
      byte ∈ shared.handed ++ shared.outside ∨
        byte ∈ labelled shared.messages.length message := by
    simp only [SharedLink.sendInLoop, outside, List.flatMap_cons,
      List.mem_append] at member ⊢
    tauto
  constructor
  · intro byte member
    rcases bytes byte member with old | new
    · exact lt_send (numbered.byte_lt byte old)
    · rw [fst_of_mem_labelled new]
      simp [SharedLink.sendInLoop]
  · intro number member
    exact lt_send (numbered.due_lt number member)
  · intro portion member
    obtain ⟨number, caller, before, later, own⟩ :=
      numbered.started portion member
    exact ⟨number, caller, lt_send before, later, own⟩
  · exact numbered.apart

theorem Numbered.started_clear (numbered : shared.Numbered) {number : Nat}
    (due : number ∈ shared.due) {portion : Portion}
    (member : portion ∈ shared.started) : part number portion.bytes = [] := by
  obtain ⟨own, _, _, later, labels⟩ := numbered.started portion member
  apply part_eq_nil.mpr
  intro byte inside same
  rw [labels byte inside] at same
  exact later (same ▸ due)

theorem queueSend_eq {index : Nat} (inside : index < shared.started.length) :
    shared.queueSend index = { shared with
      loop := shared.loop.queueInLoop
        (.sendInLoop (shared.started[index].bytes.map Prod.snd))
      queued := shared.queued ++
        [(.sendInLoop (shared.started[index].bytes.map Prod.snd),
          shared.started[index].bytes)]
      started := shared.started.eraseIdx index } := by
  simp only [queueSend, List.getElem?_eq_getElem inside]

theorem Numbered.part_queueSend (numbered : shared.Numbered) {index : Nat}
    (inside : index < shared.started.length) (number : Nat) :
    part number (shared.queueSend index).outside =
      part number shared.outside := by
  have apart : shared.started.Pairwise fun first second =>
      part number first.bytes = [] ∨ part number second.bytes = [] := by
    apply List.Pairwise.imp_of_mem ?_ numbered.apart
    intro first second member other different
    obtain ⟨own, caller, _, _, labels⟩ := numbered.started first member
    obtain ⟨others, called, _, _, marks⟩ := numbered.started second other
    by_cases same : own = number
    · right
      apply part_eq_nil.mpr
      intro byte inside equal
      apply different
      rw [caller, called, same, ← equal, marks byte inside]
    · left
      apply part_eq_nil.mpr
      intro byte inside equal
      exact same (by rw [← equal, labels byte inside])
  have whole := part_flatMap_eraseIdx inside apart
  simp only [queueSend_eq inside, outside, part_append, whole,
    List.flatMap_append, List.flatMap_singleton, List.append_assoc]

theorem Numbered.queueSend (numbered : shared.Numbered) {index : Nat}
    (inside : index < shared.started.length) :
    (shared.queueSend index).Numbered := by
  have same := numbered.part_queueSend inside
  rw [queueSend_eq inside] at same ⊢
  have fewer : (shared.started.eraseIdx index).Sublist shared.started :=
    List.eraseIdx_sublist _ _
  constructor
  · intro byte member
    rcases List.mem_append.mp member with old | outer
    · exact numbered.byte_lt byte (List.mem_append_left _ old)
    · have some : part byte.1 shared.outside ≠ [] := by
        rw [← same byte.1]
        intro none
        exact part_eq_nil.mp none byte outer rfl
      obtain ⟨other, found, label⟩ := exists_of_part some
      rw [← label]
      exact numbered.byte_lt other (List.mem_append_right _ found)
  · exact numbered.due_lt
  · intro portion member
    exact numbered.started portion (fewer.subset member)
  · exact numbered.apart.sublist fewer

theorem Numbered.startShutdown (numbered : shared.Numbered) (inLoop : Bool) :
    (shared.startShutdown inLoop).Numbered := by
  have returned (number : Nat) (member : number ∈ shared.returned) :
      number < shared.messages.length ∧ number ∉ shared.running := by
    obtain ⟨before, idle⟩ := List.mem_filter.mp member
    exact ⟨List.mem_range.mp before, of_decide_eq_true idle⟩
  have started (portion : Portion) (member : portion ∈ shared.started) :
      ∃ number, portion.caller = some number ∧
        number < shared.messages.length ∧ number ∉ shared.returned ∧
          ∀ byte ∈ portion.bytes, byte.1 = number := by
    obtain ⟨number, caller, before, _, own⟩ := numbered.started portion member
    refine ⟨number, caller, before, ?_, own⟩
    intro finished
    apply (returned number finished).2
    apply List.mem_filterMap.mpr
    exact ⟨portion, List.mem_append_right _ member, caller⟩
  have lt (number : Nat) (member : number ∈ shared.returned) :
      number < shared.messages.length := (returned number member).1
  cases inLoop with
  | true => exact ⟨numbered.byte_lt, lt, started, numbered.apart⟩
  | false => exact ⟨numbered.byte_lt, lt, started, numbered.apart⟩

theorem SharedStep.numbered (step : shared.SharedStep action next)
    (mirrors : shared.Mirrors) (numbered : shared.Numbered) :
    next.Numbered := by
  cases step with
  | turn _ top ran => exact numbered.turn mirrors top ran
  | starts _ empty stack link waiting =>
      obtain ⟨_, conserved⟩ := mirrors.starts empty stack link waiting
      obtain ⟨_, stays⟩ := shared.starts_stays _
      exact numbered.stays stays fun _ => conserved.mem
  | aside =>
      exact ⟨numbered.byte_lt, numbered.due_lt, numbered.started,
        numbered.apart⟩
  | startSend => exact numbered.startSend _
  | queueSend inside => exact numbered.queueSend inside
  | sendInLoop => exact numbered.sendInLoop _
  | startShutdown => exact numbered.startShutdown _
  | @setDisconnecting inLoop =>
      cases inLoop with
      | _ =>
          exact ⟨numbered.byte_lt, numbered.due_lt, numbered.started,
            numbered.apart⟩
  | queueShutdown =>
      refine ⟨?_, numbered.due_lt, numbered.started, numbered.apart⟩
      intro byte member
      apply numbered.byte_lt
      simpa [SharedLink.queueShutdown, outside] using member

end Numbers

section Order

/-- Nothing of a `shutdown` is to be seen yet. -/
structure Fresh (shared : SharedLink) : Prop where
  stack : .shutdownInLoop ∉ shared.loop.stack
  waiting : .shutdownInLoop ∉ shared.loop.waiting
  marked_eq : shared.marked = 0
  whole : ¬ shared.loop.link.HalfClosed

/-- The functors of `shutdown` stand behind those of the sends that have returned;
when one runs, nothing that is due is with a frame or a functor, or output that is
queued puts the half-close off. -/
structure Ordered (shared : SharedLink) : Prop where
  calls : shared.shutting = true → shared.loop.inCallback = true
  under : .shutdownInLoop ∉ shared.loop.stack.tail
  fresh : shared.loop.link.state = .kConnected → shared.Fresh
  behind : shared.queued.Pairwise fun first second =>
    first.1 = .shutdownInLoop →
      ∀ number ∈ shared.due, part number second.2 = []
  clear : .shutdownInLoop ∈ shared.loop.stack →
    shared.loop.link.isWriting = true ∨ shared.Clear

theorem mem_tail_append {frame : Frame} {frames stack : List Frame}
    (member : frame ∈ (frames ++ stack).tail) :
    frame ∈ frames.tail ∨ frame ∈ stack := by
  cases frames with
  | nil => exact .inr (List.mem_of_mem_tail member)
  | cons first frames => exact List.mem_append.mp member

theorem turn_frames_of_other {frame : Frame} {stack : List Frame}
    {loop : LinkLoop} (top : shared.loop.stack = frame :: stack)
    (other : frame.sends = false) :
    (shared.turn loop).frames = shared.frames := by
  rw [turn_of_other top other]
  rfl

theorem Clear.of_eq (clear : shared.Clear) (due : next.due = shared.due)
    (frames : next.frames = shared.frames)
    (queued : next.queued = shared.queued) : next.Clear := by
  unfold Clear
  rw [due, frames, queued]
  exact clear

theorem Fresh.turn (fresh : shared.Fresh)
    (connected : shared.loop.link.state = .kConnected) {frame : Frame}
    {stack : List Frame} {loop : LinkLoop}
    (top : shared.loop.stack = frame :: stack)
    (ran : LinkLoop.run { shared.loop with stack } frame = .ok loop) :
    (shared.turn loop).Fresh := by
  obtain ⟨frames, becomes, continues⟩ := LinkLoop.continues_of_run ran
  have stacked : loop.stack = frames ++ stack := becomes
  have same := LinkLoop.waiting_of_run ran
  have waiting : loop.waiting = shared.loop.waiting := same
  have absent := fresh.stack
  rw [top, List.mem_cons, not_or] at absent
  obtain ⟨other, below⟩ := absent
  constructor
  · intro member
    rw [turn_loop, stacked] at member
    rcases List.mem_append.mp member with new | old
    · obtain ⟨_, deferring, _⟩ :=
        LinkLoop.defers_of_run ran becomes continues new
      cases connected.symm.trans deferring
    · exact below old
  · rw [turn_loop, waiting]
    exact fresh.waiting
  · rw [(shared.turn_stays loop).marked_eq]
    exact fresh.marked_eq
  · rw [turn_loop]
    intro closed
    apply fresh.whole
    have before := LinkLoop.halfClosed_of_run (Ne.symm other) ran closed
    exact before

theorem Ordered.turn (ordered : shared.Ordered)
    (quiet : shared.shutting = false)
    (order : shared.InOrder (.loop .exec)) {frame : Frame}
    {stack : List Frame} {loop : LinkLoop}
    (top : shared.loop.stack = frame :: stack)
    (ran : LinkLoop.run { shared.loop with stack } frame = .ok loop) :
    (shared.turn loop).Ordered := by
  obtain ⟨frames, becomes, continues⟩ := LinkLoop.continues_of_run ran
  have stacked : loop.stack = frames ++ stack := becomes
  have stays := shared.turn_stays loop
  have below : .shutdownInLoop ∉ stack := by
    have under := ordered.under
    rw [top] at under
    exact under
  have rests : .shutdownInLoop ∉ frames.tail := by
    intro member
    cases continues.rests _ member
  constructor
  · intro shutting
    rw [stays.shutting_eq, quiet] at shutting
    cases shutting
  · intro member
    rw [turn_loop, stacked] at member
    rcases mem_tail_append member with new | old
    · exact rests new
    · exact below old
  · intro connected
    rw [turn_loop] at connected
    have before := LinkLoop.connected_of_run ran connected
    exact (ordered.fresh before).turn before top ran
  · rw [turn_queued, stays.due_eq]
    exact ordered.behind
  · intro member
    rw [turn_loop, stacked] at member
    rcases List.mem_append.mp member with new | old
    · obtain ⟨rfl, deferring, link⟩ :=
        LinkLoop.defers_of_run ran becomes continues new
      have link : loop.link = shared.loop.link := link
      rw [turn_loop, link]
      rcases order.deferred top deferring with writing | clear
      · exact .inl writing
      · exact .inr (clear.of_eq stays.due_eq (turn_frames_of_other top rfl)
          (turn_queued shared loop))
    · exact (below old).elim

/-- Only a functor of a `shutdown` starts `shutdownInLoop`. -/
theorem eq_of_frame {functor : LinkFunctor}
    (shuts : .shutdownInLoop ∈ [functor.frame]) :
    functor = .shutdownInLoop := by
  cases functor with
  | shutdownInLoop => rfl
  | _ => simp [LinkFunctor.frame] at shuts

theorem Fresh.starts (fresh : shared.Fresh) {functor : LinkFunctor}
    {loop : LinkLoop} (stack : loop.stack = [functor.frame])
    (link : loop.link = shared.loop.link)
    (waiting : shared.loop.waiting = functor :: loop.waiting) :
    (shared.starts loop).Fresh := by
  obtain ⟨started, stays⟩ := shared.starts_stays loop
  have absent := fresh.waiting
  rw [waiting, List.mem_cons, not_or] at absent
  obtain ⟨other, later⟩ := absent
  constructor
  · rw [started, stack]
    intro member
    exact other (eq_of_frame member).symm
  · rw [started]
    exact later
  · rw [stays.marked_eq]
    exact fresh.marked_eq
  · rw [started, link]
    exact fresh.whole

theorem Ordered.starts (ordered : shared.Ordered) (mirrors : shared.Mirrors)
    (quiet : shared.shutting = false) {functor : LinkFunctor}
    {loop : LinkLoop} (empty : shared.loop.stack = [])
    (stack : loop.stack = [functor.frame])
    (link : loop.link = shared.loop.link)
    (waiting : shared.loop.waiting = functor :: loop.waiting) :
    (shared.starts loop).Ordered := by
  obtain ⟨bytes, queued, split, _⟩ := mirrors.first waiting
  obtain ⟨started, stays⟩ := shared.starts_stays loop
  have remaining : (shared.starts loop).queued = queued := by
    simp only [SharedLink.starts, split]
  have behind := ordered.behind
  rw [split] at behind
  obtain ⟨first, others⟩ := List.pairwise_cons.mp behind
  constructor
  · intro shutting
    rw [stays.shutting_eq, quiet] at shutting
    cases shutting
  · rw [started, stack]
    simp
  · intro connected
    rw [started, link] at connected
    exact (ordered.fresh connected).starts stack link waiting
  · rw [remaining, stays.due_eq]
    exact others
  · intro member
    rw [started, stack] at member
    obtain rfl := eq_of_frame member
    -- It starts alone, and what is queued behind it is not due.
    have frames : (shared.starts loop).frames = [] := by
      simp [SharedLink.starts, split, mirrors.idle empty, LinkFunctor.frame,
        Frame.sends]
    right
    intro number due
    rw [frames, remaining]
    rw [stays.due_eq] at due
    exact ⟨by simp, fun pair member => first pair member rfl number due⟩

theorem Ordered.aside (ordered : shared.Ordered) {loop : LinkLoop}
    (aside : shared.loop.Aside loop)
    (still : shared.shutting = true → loop.stack = shared.loop.stack) :
    ({ shared with loop } : SharedLink).Ordered := by
  obtain ⟨untouched, state, waiting, stack⟩ := aside
  have old (member : .shutdownInLoop ∈ loop.stack) :
      .shutdownInLoop ∈ shared.loop.stack := by
    rcases stack with same | ⟨_, calm⟩
    · exact same ▸ member
    · exact ((calm _ member).2 rfl).elim
  constructor
  · intro shutting
    have callback := ordered.calls shutting
    simp only [LinkLoop.inCallback, still shutting]
    exact callback
  · intro member
    rcases stack with same | ⟨_, calm⟩
    · apply ordered.under
      rw [← same]
      exact member
    · exact (calm _ (List.mem_of_mem_tail member)).2 rfl
  · intro connected
    have fresh := ordered.fresh (state.symm.trans connected)
    constructor
    · intro member
      exact fresh.stack (old member)
    · intro member
      exact fresh.waiting (waiting ▸ member)
    · exact fresh.marked_eq
    · intro closed
      exact fresh.whole (closed.of_untouched untouched)
  · exact ordered.behind
  · intro member
    rcases ordered.clear (old member) with writing | clear
    · exact .inl (untouched.writing_eq.trans writing)
    · exact .inr clear

section Queueing

variable {pair : LinkFunctor × List (Nat × Byte)}
variable (none : ∀ number ∈ shared.due, part number pair.2 = [])

include none

theorem Ordered.behind_queue (ordered : shared.Ordered) :
    (shared.queued ++ [pair]).Pairwise fun first second =>
      first.1 = .shutdownInLoop →
        ∀ number ∈ shared.due, part number second.2 = [] := by
  apply List.pairwise_append.mpr
  refine ⟨ordered.behind, List.pairwise_singleton _ _, ?_⟩
  intro first _ second new _ number due
  rw [List.mem_singleton.mp new]
  exact none number due

theorem Clear.queue (clear : shared.Clear)
    (queued : next.queued = shared.queued ++ [pair])
    (due : next.due = shared.due) (frames : next.frames = shared.frames) :
    next.Clear := by
  intro number member
  rw [due] at member
  obtain ⟨free, others⟩ := clear number member
  rw [frames, queued]
  refine ⟨free, ?_⟩
  intro other inside
  rcases List.mem_append.mp inside with old | new
  · exact others other old
  · rw [List.mem_singleton.mp new]
    exact none number member

end Queueing

theorem Ordered.queueSend (ordered : shared.Ordered)
    (numbered : shared.Numbered) {index : Nat}
    (inside : index < shared.started.length) :
    (shared.queueSend index).Ordered := by
  have none (number : Nat) (due : number ∈ shared.due) :
      part number shared.started[index].bytes = [] :=
    numbered.started_clear due (List.getElem_mem inside)
  rw [queueSend_eq inside]
  refine ⟨ordered.calls, ordered.under, ?_, ordered.behind_queue none, ?_⟩
  · intro connected
    have fresh := ordered.fresh connected
    refine ⟨fresh.stack, ?_, fresh.marked_eq, fresh.whole⟩
    rw [LinkLoop.waiting_queueInLoop]
    simp [fresh.waiting]
  · intro member
    rcases ordered.clear member with writing | clear
    · exact .inl writing
    · exact .inr (clear.queue none rfl rfl rfl)

theorem Ordered.sendInLoop (ordered : shared.Ordered)
    (connected : shared.loop.link.state = .kConnected)
    (quiet : shared.shutting = false) (message : List Byte) :
    (shared.sendInLoop message).Ordered := by
  have fresh := ordered.fresh connected
  have absent : .shutdownInLoop ∉ (shared.sendInLoop message).loop.stack := by
    intro member
    rcases List.mem_cons.mp member with wrong | old
    · cases wrong
    · exact fresh.stack old
  refine ⟨?_, fresh.stack, ?_, ordered.behind, ?_⟩
  · intro shutting
    cases quiet.symm.trans shutting
  · intro _
    exact ⟨absent, fresh.waiting, fresh.marked_eq, fresh.whole⟩
  · intro member
    exact (absent member).elim

/-- More may be due than before, but no functor of a `shutdown` is queued. -/
theorem Ordered.startShutdown (ordered : shared.Ordered)
    (mirrors : shared.Mirrors)
    (connected : shared.loop.link.state = .kConnected) {inLoop : Bool}
    (callback : inLoop = true → shared.loop.inCallback = true) :
    (shared.startShutdown inLoop).Ordered := by
  have fresh := ordered.fresh connected
  have behind : shared.queued.Pairwise fun first second =>
      first.1 = .shutdownInLoop →
        ∀ number ∈ shared.returned, part number second.2 = [] := by
    apply List.Pairwise.imp_of_mem ?_ ordered.behind
    intro first _ member _ _ shuts
    have queued : first.1 ∈ shared.queued.map Prod.fst :=
      List.mem_map_of_mem member
    rw [mirrors.functors_eq, shuts] at queued
    exact (fresh.waiting queued).elim
  cases inLoop with
  | true =>
      exact ⟨fun _ => callback rfl, ordered.under,
        fun _ => ⟨fresh.stack, fresh.waiting, fresh.marked_eq, fresh.whole⟩,
        behind, fun member => (fresh.stack member).elim⟩
  | false =>
      exact ⟨ordered.calls, ordered.under,
        fun _ => ⟨fresh.stack, fresh.waiting, fresh.marked_eq, fresh.whole⟩,
        behind, fun member => (fresh.stack member).elim⟩

theorem Ordered.setDisconnecting (ordered : shared.Ordered) {inLoop : Bool}
    (shutting : inLoop = true → shared.shutting = true)
    (order : shared.InOrder (.setDisconnecting inLoop)) :
    (shared.setDisconnecting inLoop).Ordered := by
  cases inLoop with
  | true =>
      have callback := ordered.calls (shutting rfl)
      have absent : .shutdownInLoop ∉ shared.loop.stack := by
        have under := ordered.under
        cases top : shared.loop.stack with
        | nil => simp
        | cons frame stack =>
            rw [top] at under
            intro member
            rcases List.mem_cons.mp member with rfl | old
            · simp [LinkLoop.inCallback, top, Frame.isCallback] at callback
            · exact under old
      refine ⟨?_, absent, ?_, ordered.behind, ?_⟩
      · intro wrong
        cases wrong
      · intro wrong
        cases wrong
      · intro _
        exact order.2 rfl
  | false =>
      refine ⟨ordered.calls, ordered.under, ?_, ordered.behind,
        ordered.clear⟩
      intro wrong
      cases wrong

theorem Ordered.queueShutdown (ordered : shared.Ordered)
    (marked : 0 < shared.marked) : shared.queueShutdown.Ordered := by
  have none (number : Nat) (_ : number ∈ shared.due) :
      part number ([] : List (Nat × Byte)) = [] := rfl
  refine ⟨ordered.calls, ordered.under, ?_, ordered.behind_queue none, ?_⟩
  · intro connected
    have unmarked := (ordered.fresh connected).marked_eq
    omega
  · intro member
    rcases ordered.clear member with writing | clear
    · exact .inl writing
    · exact .inr (clear.queue none rfl rfl rfl)

theorem SharedStep.ordered (step : shared.SharedStep action next)
    (order : shared.InOrder action) (mirrors : shared.Mirrors)
    (numbered : shared.Numbered) (ordered : shared.Ordered) :
    next.Ordered := by
  cases step with
  | turn quiet top ran => exact ordered.turn quiet order top ran
  | starts quiet empty stack link waiting =>
      exact ordered.starts mirrors quiet empty stack link waiting
  | aside aside still => exact ordered.aside aside still
  | startSend connected =>
      have fresh := ordered.fresh connected
      exact ⟨ordered.calls, ordered.under,
        fun _ => ⟨fresh.stack, fresh.waiting, fresh.marked_eq, fresh.whole⟩,
        ordered.behind, ordered.clear⟩
  | queueSend inside => exact ordered.queueSend numbered inside
  | sendInLoop connected _ quiet => exact ordered.sendInLoop connected quiet _
  | startShutdown connected callback =>
      exact ordered.startShutdown mirrors connected callback
  | setDisconnecting shutting => exact ordered.setDisconnecting shutting order
  | queueShutdown marked => exact ordered.queueShutdown marked

theorem SharedStep.retains (step : shared.SharedStep action next)
    (order : shared.InOrder action) (mirrors : shared.Mirrors)
    (retains : shared.loop.Retains) : next.loop.Retains := by
  cases step with
  | turn _ top ran =>
      rw [turn_loop]
      exact retains.turn mirrors.sound top ran
  | @starts functor _ _ empty stack link _ =>
      rw [(shared.starts_stays _).1]
      apply retains.untouched
      · rw [link]
        exact .refl _
      · intro frame member
        rw [stack, List.mem_singleton] at member
        rw [member]
        cases functor with
        | _ => exact .inr rfl
  | aside aside =>
      apply retains.untouched aside.untouched
      intro frame member
      rcases aside.stack_eq with same | ⟨_, calm⟩
      · exact .inl (same ▸ member)
      · exact .inr (Frame.keeps_of_not_sends (calm frame member).1)
  | startSend => exact retains
  | queueSend inside =>
      rw [queueSend_eq inside]
      exact ⟨retains.drained, retains.keeps⟩
  | sendInLoop => exact retains.call rfl
  | @startShutdown inLoop =>
      cases inLoop with
      | _ => exact retains
  | @setDisconnecting inLoop =>
      obtain ⟨opened, _⟩ := order
      have disconnecting : (shared.loop.setLink
          (shared.loop.link.setState .kDisconnecting)).Retains :=
        retains.untouched
          ⟨rfl, rfl, rfl, rfl, fun closed => (opened closed).elim⟩
          fun frame member => .inl member
      cases inLoop with
      | true => exact disconnecting.call rfl
      | false => exact disconnecting
  | queueShutdown => exact ⟨retains.drained, retains.keeps⟩

end Order

end SharedLink

end Muduo
