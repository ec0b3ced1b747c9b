import Muduo.Net.LinkCloses
import Muduo.Net.SharedLink

/-!
# What a step of a shared link can do

`SharedStep` lists the steps.  `Mirrors` says that the numbered bytes are those of
the link, wherever they are; a turn of a frame keeps them in their order or drops
those of one message.
-/

namespace Muduo

open Library

namespace LinkLoop

open LinkedSocket

variable {loop next : LinkLoop}

/-- A step that neither moves bytes nor starts a functor. -/
structure Aside (loop next : LinkLoop) : Prop where
  untouched : Untouched loop.link next.link
  state_eq : next.link.state = loop.link.state
  waiting_eq : next.waiting = loop.waiting
  stack_eq : next.stack = loop.stack ∨ (loop.stack = [] ∧
    ∀ frame ∈ next.stack, frame.sends = false ∧ frame ≠ .shutdownInLoop)

theorem aside_of_step {action : LinkAction}
    (call : action.isCall = false) (turn : action ≠ .exec)
    (start : action ≠ .startFunctor)
    (enabled : linkMachine.enabled loop action)
    (stepped : linkMachine.step loop action = .ok next) :
    Aside loop next := by
  have untouched := untouched_of_step turn enabled stepped
  have waiting : next.waiting = loop.waiting := by
    cases waitingStep_of_step enabled stepped with
    | stays same => exact same
    | queues queued =>
        cases queued with
        | _ => cases call
    | starts started => exact (start started).elim
  have state : next.link.state = loop.link.state := by
    cases action with
    | exec => exact (turn rfl).elim
    | startFunctor => exact (start rfl).elim
    | send | shutdown | forceClose => cases call
    | _ =>
        cases stepped
        rfl
  refine ⟨untouched, state, waiting, ?_⟩
  obtain ⟨frames, becomes, enters⟩ := enters_of_step enabled stepped turn
  cases enters with
  | nothing => exact .inl becomes
  | handleEvent empty =>
      refine .inr ⟨empty, ?_⟩
      rw [becomes, empty]
      simp [Frame.sends]
  | enter empty =>
      refine .inr ⟨empty, ?_⟩
      rw [becomes, empty]
      simp [Frame.sends]
  | startFunctor => exact (start rfl).elim
  | send => cases call
  | shutdown => cases call

end LinkLoop

namespace SharedLink

variable {shared next : SharedLink}

/-- The steps of a link that several threads use. -/
inductive SharedStep (shared : SharedLink) :
    SharedAction → SharedLink → Prop where
  | turn {frame : Frame} {stack : List Frame} {next : LinkLoop} :
      shared.shutting = false →
      shared.loop.stack = frame :: stack →
      LinkLoop.run { shared.loop with stack } frame = .ok next →
      SharedStep shared (.loop .exec) (shared.turn next)
  | starts {functor : LinkFunctor} {next : LinkLoop} :
      shared.shutting = false →
      shared.loop.stack = [] →
      next.stack = [functor.frame] →
      next.link = shared.loop.link →
      shared.loop.waiting = functor :: next.waiting →
      SharedStep shared (.loop .startFunctor) (shared.starts next)
  | aside {action : LinkAction} {next : LinkLoop} :
      shared.loop.Aside next →
      (shared.shutting = true → next.stack = shared.loop.stack) →
      SharedStep shared (.loop action) { shared with loop := next }
  | startSend {message : List Byte} :
      shared.loop.link.state = .kConnected →
      SharedStep shared (.startSend message) (shared.startSend message)
  | queueSend {index : Nat} :
      index < shared.started.length →
      SharedStep shared (.queueSend index) (shared.queueSend index)
  | sendInLoop {message : List Byte} :
      shared.loop.link.state = .kConnected →
      shared.loop.inCallback = true →
      shared.shutting = false →
      SharedStep shared (.sendInLoop message) (shared.sendInLoop message)
  | startShutdown {inLoop : Bool} :
      shared.loop.link.state = .kConnected →
      (inLoop = true → shared.loop.inCallback = true) →
      SharedStep shared (.startShutdown inLoop) (shared.startShutdown inLoop)
  | setDisconnecting {inLoop : Bool} :
      (inLoop = true → shared.shutting = true) →
      SharedStep shared (.setDisconnecting inLoop)
        (shared.setDisconnecting inLoop)
  | queueShutdown :
      0 < shared.marked →
      SharedStep shared .queueShutdown shared.queueShutdown

theorem sharedStep_of_step {action : SharedAction}
    (enabled : sharedMachine.enabled shared action)
    (stepped : sharedMachine.step shared action = .ok next) :
    SharedStep shared action next := by
  cases action with
  | loop action =>
      obtain ⟨allowed, call, quiet, _⟩ := enabled
      obtain ⟨loop, result, same⟩ := bind_eq_ok stepped
      cases same
      have busy (own : action.isShared = false) : shared.shutting = false := by
        rw [Bool.eq_false_iff]
        intro shutting
        cases own.symm.trans (quiet shutting)
      by_cases turn : action = .exec
      · subst turn
        obtain ⟨frame, stack, top, ran⟩ := LinkLoop.exec_eq allowed result
        exact .turn (busy rfl) top ran
      by_cases start : action = .startFunctor
      · subst start
        have step := LinkLoop.linkStep_of_step allowed result
        cases LinkLoop.waitingStep_of_step allowed result with
        | stays _ other => exact (other rfl).elim
        | queues queued => cases queued
        | starts _ empty stack waiting =>
            have link : loop.link = shared.loop.link := by
              cases step with
              | startFunctor => rfl
            exact .starts (busy rfl) empty stack link waiting
      have aside := LinkLoop.aside_of_step call turn start allowed result
      have same : shared.follow loop action = { shared with loop } := by
        cases action with
        | exec => exact (turn rfl).elim
        | startFunctor => exact (start rfl).elim
        | _ => rfl
      rw [same]
      refine .aside aside ?_
      intro shutting
      cases action with
      | copy | release =>
          cases result
          rfl
      | _ => cases quiet shutting
  | startSend message =>
      obtain ⟨connected, _⟩ := enabled
      cases stepped
      exact .startSend connected
  | queueSend index =>
      cases stepped
      exact .queueSend enabled
  | sendInLoop message =>
      obtain ⟨connected, callback, quiet⟩ := enabled
      cases stepped
      exact .sendInLoop connected callback quiet
  | startShutdown inLoop =>
      cases stepped
      cases inLoop with
      | true => exact .startShutdown enabled.1 (fun _ => enabled.2.1)
      | false => exact .startShutdown enabled.1 (by simp)
  | setDisconnecting inLoop =>
      cases stepped
      cases inLoop with
      | true => exact .setDisconnecting (fun _ => enabled)
      | false => exact .setDisconnecting (by simp)
  | queueShutdown =>
      cases stepped
      exact .queueShutdown enabled

/-- The bytes of messages that the kernel has not got. -/
def outside (shared : SharedLink) : List (Nat × Byte) :=
  shared.output ++ shared.frames.flatMap Portion.bytes ++
    shared.queued.flatMap Prod.snd ++ shared.started.flatMap Portion.bytes

/-- The numbered bytes are those of the link, wherever they are. -/
structure Mirrors (shared : SharedLink) : Prop where
  sound : shared.loop.link.outputBuffer.Sound
  handed_eq : shared.handed.map Prod.snd = shared.loop.link.kernel.accepted
  output_eq : shared.output.map Prod.snd =
    shared.loop.link.outputBuffer.content
  frames_eq : shared.frames.map (fun portion => portion.bytes.map Prod.snd) =
    (shared.loop.stack.filter Frame.sends).map Frame.pending
  functors_eq : shared.queued.map Prod.fst = shared.loop.waiting
  queued_eq : ∀ pair ∈ shared.queued,
    pair.2.map Prod.snd = pair.1.frame.pending

/-- The bytes go on in their order. -/
structure Conserved (shared next : SharedLink) : Prop where
  handed_prefix : shared.handed <+: next.handed
  whole_eq : next.handed ++ next.outside = shared.handed ++ shared.outside

/-- Bytes that the kernel has not got are dropped. -/
structure Dropped (shared next : SharedLink) : Prop where
  handed_eq : next.handed = shared.handed
  outside_sublist : next.outside.Sublist shared.outside

theorem flatMap_pending (frames : List Frame) :
    frames.flatMap Frame.pending =
      ((frames.filter Frame.sends).map Frame.pending).flatten := by
  induction frames with
  | nil => rfl
  | cons frame frames induction =>
      cases sends : frame.sends with
      | true => simp [sends, induction]
      | false =>
          simp [sends, induction, Frame.pending_of_not_sends sends]

/-- The bytes of a send that a turn moves on, `bytes` before it and `rest` after
it. -/
theorem Mirrors.moved (mirrors : shared.Mirrors) {loop : LinkLoop}
    {bytes : List (Nat × Byte)} {pending left : List Byte}
    (moves : shared.loop.link.Moves loop.link pending left)
    (same : bytes.map Prod.snd = pending)
    (frames : List (Nat × Byte) → List Portion) :
    (shared.moved loop bytes frames).handed.map Prod.snd =
        loop.link.kernel.accepted ∧
      (shared.moved loop bytes frames).output.map Prod.snd =
        loop.link.outputBuffer.content ∧
      shared.handed <+: (shared.moved loop bytes frames).handed ∧
      ∃ rest, (shared.moved loop bytes frames).frames = frames rest ∧
        rest.map Prod.snd = left ∧
        (shared.moved loop bytes frames).handed ++
            (shared.moved loop bytes frames).output ++ rest =
          shared.handed ++ shared.output ++ bytes := by
  have items : (shared.handed ++ shared.output ++ bytes).map Prod.snd =
      loop.link.kernel.accepted ++ loop.link.outputBuffer.content ++
        left := by
    have outgoing := moves.outgoing_eq
    simp only [LinkedSocket.outgoing] at outgoing
    rw [List.map_append, List.map_append, mirrors.handed_eq,
      mirrors.output_eq, same, outgoing]
  obtain ⟨handed, output, rest, whole⟩ := cut_labelled items
  refine ⟨handed, output, ?_, _, rfl, rest, whole⟩
  have before : shared.handed <+:
      shared.handed ++ shared.output ++ bytes := by
    rw [List.append_assoc]
    exact List.prefix_append _ _
  have longer := moves.accepted_prefix.length_le
  rw [← mirrors.handed_eq, ← handed, List.length_map,
    List.length_map] at longer
  exact List.prefix_of_prefix_length_le before (List.take_prefix _ _) longer

theorem Mirrors.portion (mirrors : shared.Mirrors) {frame : Frame}
    {stack : List Frame} (top : shared.loop.stack = frame :: stack)
    (sends : frame.sends = true) :
    ∃ portion portions, shared.frames = portion :: portions ∧
      portion.bytes.map Prod.snd = frame.pending ∧
      portions.map (fun portion => portion.bytes.map Prod.snd) =
        (stack.filter Frame.sends).map Frame.pending := by
  have frames := mirrors.frames_eq
  rw [top, List.filter_cons_of_pos sends, List.map_cons] at frames
  obtain ⟨portion, portions, split, same, others⟩ :=
    List.map_eq_cons_iff.mp frames
  exact ⟨portion, portions, split, same, others⟩

theorem turn_eq (shared : SharedLink) (loop : LinkLoop) :
    ∃ bytes frames, shared.turn loop = shared.moved loop bytes frames := by
  unfold turn
  split
  · split
    · exact ⟨_, _, rfl⟩
    · exact ⟨_, _, rfl⟩
  · exact ⟨_, _, rfl⟩

@[simp] theorem turn_loop (shared : SharedLink) (loop : LinkLoop) :
    (shared.turn loop).loop = loop := by
  obtain ⟨bytes, frames, same⟩ := shared.turn_eq loop
  rw [same]
  rfl

@[simp] theorem turn_queued (shared : SharedLink) (loop : LinkLoop) :
    (shared.turn loop).queued = shared.queued := by
  obtain ⟨bytes, frames, same⟩ := shared.turn_eq loop
  rw [same]
  rfl

/-- The calls of the users and what is due stay as they are. -/
structure Stays (shared next : SharedLink) : Prop where
  messages_eq : next.messages = shared.messages
  due_eq : next.due = shared.due
  started_eq : next.started = shared.started
  marked_eq : next.marked = shared.marked
  shutting_eq : next.shutting = shared.shutting

theorem turn_stays (shared : SharedLink) (loop : LinkLoop) :
    Stays shared (shared.turn loop) := by
  obtain ⟨bytes, frames, same⟩ := shared.turn_eq loop
  rw [same]
  exact ⟨rfl, rfl, rfl, rfl, rfl⟩

theorem starts_stays (shared : SharedLink) (loop : LinkLoop) :
    (shared.starts loop).loop = loop ∧ Stays shared (shared.starts loop) := by
  unfold starts
  split
  · exact ⟨rfl, rfl, rfl, rfl, rfl, rfl⟩
  · exact ⟨rfl, rfl, rfl, rfl, rfl, rfl⟩

theorem turn_of_sends {frame : Frame} {stack : List Frame}
    {portion : Portion} {portions : List Portion} {loop : LinkLoop}
    (top : shared.loop.stack = frame :: stack)
    (frames : shared.frames = portion :: portions)
    (sends : frame.sends = true) :
    shared.turn loop = shared.moved loop portion.bytes fun rest =>
      if stack.countP Frame.sends < loop.stack.countP Frame.sends then
        { portion with bytes := rest } :: portions
      else portions := by
  simp only [turn, top, frames, if_pos sends]

theorem turn_of_other {frame : Frame} {stack : List Frame} {loop : LinkLoop}
    (top : shared.loop.stack = frame :: stack)
    (other : frame.sends = false) :
    shared.turn loop = shared.moved loop [] fun _ => shared.frames := by
  unfold turn
  split
  · next first _ _ _ whole _ =>
      obtain ⟨rfl, _⟩ := List.cons_eq_cons.mp (top.symm.trans whole)
      rw [if_neg (by simp [other])]
  · rfl

theorem Mirrors.turn_other (mirrors : shared.Mirrors) {frame : Frame}
    {stack pushed : List Frame} {loop : LinkLoop}
    (top : shared.loop.stack = frame :: stack)
    (other : frame.sends = false) (becomes : loop.stack = pushed ++ stack)
    (waiting : loop.waiting = shared.loop.waiting)
    (carries : LinkLoop.Carries { shared.loop with stack } frame loop pushed) :
    (shared.turn loop).Mirrors ∧ shared.Conserved (shared.turn loop) ∧
      (shared.turn loop).frames = shared.frames := by
  have calm : pushed.filter Frame.sends = [] := by
    have few := carries.sends_le
    rw [other, List.countP_eq_length_filter] at few
    exact List.eq_nil_of_length_eq_zero (Nat.le_zero.mp few)
  have none : pushed.flatMap Frame.pending = [] := by
    rw [flatMap_pending, calm]
    rfl
  have moves := carries.moves
  rw [Frame.pending_of_not_sends other, none] at moves
  rw [turn_of_other top other]
  obtain ⟨handed, output, longer, rest, same, empty, whole⟩ :=
    mirrors.moved moves (show ([] : List (Nat × Byte)).map Prod.snd = [] from
      rfl) fun _ => shared.frames
  obtain rfl : rest = [] := List.map_eq_nil_iff.mp empty
  rw [List.append_nil, List.append_nil] at whole
  refine ⟨⟨carries.moves.output_sound, handed, output, ?_, ?_,
    mirrors.queued_eq⟩, ⟨longer, ?_⟩, rfl⟩
  · have frames := mirrors.frames_eq
    rw [top, List.filter_cons_of_neg (by simp [other])] at frames
    show shared.frames.map _ = (loop.stack.filter _).map _
    rw [frames, becomes, List.filter_append, calm, List.nil_append]
  · exact mirrors.functors_eq.trans waiting.symm
  · show _ ++ (_ ++ shared.frames.flatMap Portion.bytes ++ _ ++ _) = _
    simp only [outside, ← List.append_assoc, whole]
    rfl

theorem Mirrors.turn_sends (mirrors : shared.Mirrors) {frame : Frame}
    {stack pushed : List Frame} {loop : LinkLoop}
    (top : shared.loop.stack = frame :: stack)
    (sends : frame.sends = true) (becomes : loop.stack = pushed ++ stack)
    (waiting : loop.waiting = shared.loop.waiting)
    (carries : LinkLoop.Carries { shared.loop with stack } frame loop pushed) :
    (shared.turn loop).Mirrors ∧ shared.Conserved (shared.turn loop) := by
  obtain ⟨portion, portions, frames, same, others⟩ :=
    mirrors.portion top sends
  rw [turn_of_sends top frames sends]
  obtain ⟨handed, output, longer, rest, placed, left, whole⟩ :=
    mirrors.moved carries.moves same fun rest =>
      if stack.countP Frame.sends < loop.stack.countP Frame.sends then
        { portion with bytes := rest } :: portions
      else portions
  have counted : loop.stack.countP Frame.sends =
      pushed.countP Frame.sends + stack.countP Frame.sends := by
    rw [becomes, List.countP_append]
  -- The frames of the send that are left have what is left of its bytes.
  have kept : ∃ own : List Portion,
      (shared.moved loop portion.bytes fun rest =>
        if stack.countP Frame.sends < loop.stack.countP Frame.sends then
          { portion with bytes := rest } :: portions
        else portions).frames = own ++ portions ∧
      own.flatMap Portion.bytes = rest ∧
      own.map (fun portion => portion.bytes.map Prod.snd) =
        (pushed.filter Frame.sends).map Frame.pending := by
    have size : pushed.countP Frame.sends =
        (pushed.filter Frame.sends).length := List.countP_eq_length_filter
    have few := carries.sends_le
    rw [sends, size] at few
    rw [flatMap_pending] at left
    rw [placed, counted, size]
    cases sending : pushed.filter Frame.sends with
    | nil =>
        rw [sending] at left
        have none : rest = [] := List.map_eq_nil_iff.mp left
        refine ⟨[], ?_, none.symm, rfl⟩
        rw [if_neg (by simp)]
        rfl
    | cons first more =>
        have single : more = [] := by
          rw [sending] at few
          simpa using few
        rw [sending, single] at left
        refine ⟨[{ portion with bytes := rest }], ?_, by simp, ?_⟩
        · rw [if_pos (by simp)]
          rfl
        · simpa [single] using left
  obtain ⟨own, placed, bytes, listed⟩ := kept
  refine ⟨⟨carries.moves.output_sound, handed, output, ?_, ?_,
    mirrors.queued_eq⟩, ⟨longer, ?_⟩⟩
  · rw [placed, List.map_append, listed, others]
    show _ = (loop.stack.filter _).map _
    rw [becomes, List.filter_append, List.map_append]
  · exact mirrors.functors_eq.trans waiting.symm
  · rw [outside, placed, List.flatMap_append, bytes]
    simp only [outside, frames, List.flatMap_cons, ← List.append_assoc]
    rw [whole]
    rfl

theorem Mirrors.turn_drops (mirrors : shared.Mirrors) {frame : Frame}
    {stack : List Frame} (top : shared.loop.stack = frame :: stack)
    (sends : frame.sends = true) :
    (shared.turn { shared.loop with stack }).Mirrors ∧
      shared.Dropped (shared.turn { shared.loop with stack }) := by
  obtain ⟨portion, portions, frames, same, others⟩ :=
    mirrors.portion top sends
  have given : shared.handed.length =
      shared.loop.link.kernel.accepted.length := by
    rw [← mirrors.handed_eq, List.length_map]
  have left : shared.output.length =
      shared.loop.link.outputBuffer.content.length := by
    rw [← mirrors.output_eq, List.length_map]
  have turned : shared.turn { shared.loop with stack } =
      { shared with loop := { shared.loop with stack }, frames := portions } := by
    rw [turn_of_sends top frames sends]
    simp only [SharedLink.moved, Nat.lt_irrefl, if_false, ← given, ← left,
      List.append_assoc, List.take_left, List.drop_left]
  rw [turned]
  refine ⟨⟨mirrors.sound, mirrors.handed_eq, mirrors.output_eq, others,
    mirrors.functors_eq, mirrors.queued_eq⟩, ⟨rfl, ?_⟩⟩
  simp only [outside, frames, List.flatMap_cons, List.append_assoc]
  apply List.Sublist.append_left
  exact List.sublist_append_right _ _

/-- A turn of a frame conserves the bytes, unless a send gives up. -/
theorem Mirrors.turn (mirrors : shared.Mirrors) {frame : Frame}
    {stack : List Frame} {loop : LinkLoop}
    (top : shared.loop.stack = frame :: stack)
    (ran : LinkLoop.run { shared.loop with stack } frame = .ok loop) :
    (shared.turn loop).Mirrors ∧
      (shared.Conserved (shared.turn loop) ∨
        (shared.Dropped (shared.turn loop) ∧
          (shared.loop.link.state = .kDisconnected ∨
            frame.givesUp = true))) := by
  have same := LinkLoop.waiting_of_run ran
  have waiting : loop.waiting = shared.loop.waiting := same
  rcases @LinkLoop.carries_or_drops { shared.loop with stack } loop frame
      mirrors.sound ran with
    ⟨pushed, becomes, carries⟩ | ⟨sends, rfl, lost⟩
  · cases sends : frame.sends with
    | true =>
        obtain ⟨after, conserved⟩ :=
          mirrors.turn_sends top sends becomes waiting carries
        exact ⟨after, .inl conserved⟩
    | false =>
        obtain ⟨after, conserved, _⟩ :=
          mirrors.turn_other top sends becomes waiting carries
        exact ⟨after, .inl conserved⟩
  · obtain ⟨after, dropped⟩ := mirrors.turn_drops top sends
    exact ⟨after, .inr ⟨dropped, lost⟩⟩

theorem Mirrors.first (mirrors : shared.Mirrors) {functor : LinkFunctor}
    {remaining : List LinkFunctor}
    (waiting : shared.loop.waiting = functor :: remaining) :
    ∃ bytes queued, shared.queued = (functor, bytes) :: queued ∧
      queued.map Prod.fst = remaining := by
  have functors := mirrors.functors_eq.trans waiting
  obtain ⟨⟨first, bytes⟩, queued, split, same, others⟩ :=
    List.map_eq_cons_iff.mp functors
  obtain rfl : first = functor := same
  exact ⟨bytes, queued, split, others⟩

theorem Mirrors.idle (mirrors : shared.Mirrors)
    (empty : shared.loop.stack = []) : shared.frames = [] := by
  have frames := mirrors.frames_eq
  rw [empty] at frames
  exact List.map_eq_nil_iff.mp frames

theorem Mirrors.starts (mirrors : shared.Mirrors) {functor : LinkFunctor}
    {loop : LinkLoop} (empty : shared.loop.stack = [])
    (stack : loop.stack = [functor.frame])
    (link : loop.link = shared.loop.link)
    (waiting : shared.loop.waiting = functor :: loop.waiting) :
    (shared.starts loop).Mirrors ∧
      shared.Conserved (shared.starts loop) := by
  obtain ⟨bytes, queued, split, others⟩ := mirrors.first waiting
  have own : bytes.map Prod.snd = functor.frame.pending :=
    mirrors.queued_eq (functor, bytes) (by simp [split])
  have idle := mirrors.idle empty
  have kept : ∀ pair ∈ queued, pair.2.map Prod.snd = pair.1.frame.pending := by
    intro pair member
    apply mirrors.queued_eq
    rw [split]
    exact List.mem_cons_of_mem _ member
  have started : shared.starts loop = { shared with
      loop, queued
      frames :=
        if functor.frame.sends then { caller := none, bytes } :: shared.frames
        else shared.frames } := by
    simp only [SharedLink.starts, split]
  rw [started]
  refine ⟨⟨link ▸ mirrors.sound, link ▸ mirrors.handed_eq,
    link ▸ mirrors.output_eq, ?_, others, kept⟩, ⟨List.prefix_rfl, ?_⟩⟩
  · show List.map _ _ = (loop.stack.filter _).map _
    rw [stack, idle]
    cases sends : functor.frame.sends with
    | true => simp [sends, own]
    | false => simp [sends]
  · cases sends : functor.frame.sends with
    | true => simp [outside, split, idle]
    | false =>
        have none : bytes = [] := by
          rw [Frame.pending_of_not_sends sends] at own
          exact List.map_eq_nil_iff.mp own
        simp [outside, split, idle, none]

theorem Mirrors.aside (mirrors : shared.Mirrors) {loop : LinkLoop}
    (aside : shared.loop.Aside loop) :
    ({ shared with loop } : SharedLink).Mirrors := by
  obtain ⟨untouched, _, waiting, stack⟩ := aside
  have kept : loop.stack.filter Frame.sends =
      shared.loop.stack.filter Frame.sends := by
    rcases stack with same | ⟨empty, calm⟩
    · rw [same]
    · rw [empty]
      apply List.filter_eq_nil_iff.mpr
      intro frame member
      simp [(calm frame member).1]
  refine ⟨untouched.output_eq ▸ mirrors.sound,
    untouched.kernel_eq ▸ mirrors.handed_eq,
    untouched.output_eq ▸ mirrors.output_eq, ?_,
    mirrors.functors_eq.trans waiting.symm, mirrors.queued_eq⟩
  exact mirrors.frames_eq.trans (congrArg _ kept.symm)

theorem Mirrors.queues (mirrors : shared.Mirrors) {functor : LinkFunctor}
    {bytes : List (Nat × Byte)} {started : List Portion} {marked : Nat}
    (sends : bytes.map Prod.snd = functor.frame.pending) :
    Mirrors { shared with
      loop := shared.loop.queueInLoop functor
      queued := shared.queued ++ [(functor, bytes)]
      started
      marked } := by
  refine ⟨mirrors.sound, mirrors.handed_eq, mirrors.output_eq,
    mirrors.frames_eq, ?_, ?_⟩
  · rw [LinkLoop.waiting_queueInLoop, List.map_append, mirrors.functors_eq]
    rfl
  · intro pair member
    rcases List.mem_append.mp member with old | new
    · exact mirrors.queued_eq pair old
    · rw [List.mem_singleton.mp new]
      exact sends

/-- Every step keeps the numbered bytes those of the link. -/
theorem SharedStep.mirrors {action : SharedAction}
    (step : shared.SharedStep action next) (mirrors : shared.Mirrors) :
    next.Mirrors := by
  cases step with
  | turn _ top ran => exact (mirrors.turn top ran).1
  | starts _ empty stack link waiting =>
      exact (mirrors.starts empty stack link waiting).1
  | aside aside _ => exact mirrors.aside aside
  | startSend =>
      exact ⟨mirrors.sound, mirrors.handed_eq, mirrors.output_eq,
        mirrors.frames_eq, mirrors.functors_eq, mirrors.queued_eq⟩
  | @queueSend index inside =>
      have found := List.getElem?_eq_getElem inside
      simp only [SharedLink.queueSend, found]
      exact mirrors.queues rfl
  | sendInLoop =>
      refine ⟨mirrors.sound, mirrors.handed_eq, mirrors.output_eq, ?_,
        mirrors.functors_eq, mirrors.queued_eq⟩
      simp only [SharedLink.sendInLoop, List.map_cons, map_snd_labelled,
        mirrors.frames_eq]
      rfl
  | @startShutdown inLoop =>
      cases inLoop with
      | _ =>
          exact ⟨mirrors.sound, mirrors.handed_eq, mirrors.output_eq,
            mirrors.frames_eq, mirrors.functors_eq, mirrors.queued_eq⟩
  | @setDisconnecting inLoop =>
      cases inLoop with
      | _ =>
          exact ⟨mirrors.sound, mirrors.handed_eq, mirrors.output_eq,
            mirrors.frames_eq, mirrors.functors_eq, mirrors.queued_eq⟩
  | queueShutdown => exact mirrors.queues rfl

end SharedLink

end Muduo
