import Muduo.Net.SharedOrder

/-!
# Messages before a half-close

As long as a link is open the bytes of every message are somewhere, whole; so where
the order of `SharedOrder` leaves none of those that are due with a frame, a functor
or the output buffer, the kernel has got them.
-/

namespace Muduo

open Library

namespace SharedLink

variable {shared next : SharedLink} {action : SharedAction}

section Delivery

/-- The bytes with the number of a message are the message, wherever they are. -/
def Entire (shared : SharedLink) : Prop :=
  ∀ number message, shared.messages[number]? = some message →
    part number (shared.handed ++ shared.outside) = message

/-- The kernel has got every message that is due. -/
def Delivered (shared : SharedLink) : Prop :=
  ∀ number ∈ shared.due,
    shared.messages[number]? = some (part number shared.handed) ∧
      part number shared.outside = []

/-- All messages are there as long as the link is open; those that are due come
before the half-close. -/
structure Delivers (shared : SharedLink) : Prop where
  entire : shared.loop.link.state ≠ .kDisconnected →
    ¬ shared.loop.link.HalfClosed → shared.Entire
  delivered : shared.loop.link.HalfClosed → shared.Delivered

theorem Entire.conserved (entire : shared.Entire)
    (messages : next.messages = shared.messages)
    (conserved : shared.Conserved next) : next.Entire := by
  intro number message found
  rw [conserved.whole_eq]
  apply entire
  rw [← messages]
  exact found

theorem Delivered.conserved (delivered : shared.Delivered)
    (stays : Stays shared next) (conserved : shared.Conserved next) :
    next.Delivered := by
  intro number due
  rw [stays.due_eq] at due
  obtain ⟨found, none⟩ := delivered number due
  obtain ⟨more, longer⟩ := conserved.handed_prefix
  -- What is handed over and what is left are cut from bytes without it.
  have left : more ++ next.outside = shared.outside := by
    have whole := conserved.whole_eq
    rw [← longer, List.append_assoc] at whole
    exact List.append_cancel_left whole
  obtain ⟨given, rest⟩ := part_cut (left ▸ none)
  refine ⟨?_, rest⟩
  rw [stays.messages_eq, found, ← longer, part_append, given,
    List.append_nil]

theorem Delivered.dropped (delivered : shared.Delivered)
    (stays : Stays shared next) (dropped : shared.Dropped next) :
    next.Delivered := by
  intro number due
  rw [stays.due_eq] at due
  obtain ⟨found, none⟩ := delivered number due
  refine ⟨?_, part_eq_nil_of_sublist dropped.outside_sublist none⟩
  rw [stays.messages_eq, found, dropped.handed_eq]

/-- Where nothing is queued the kernel has got what is due. -/
theorem Entire.delivered (entire : shared.Entire) (mirrors : shared.Mirrors)
    (numbered : shared.Numbered) (clear : shared.Clear)
    (drained : shared.loop.link.outputBuffer.content = []) :
    shared.Delivered := by
  intro number due
  obtain ⟨frames, queued⟩ := clear number due
  have none : part number shared.outside = [] := by
    apply part_eq_nil.mpr
    intro byte member
    have output : shared.output = [] := by
      have same := mirrors.output_eq
      rw [drained] at same
      exact List.map_eq_nil_iff.mp same
    simp only [outside, output, List.nil_append, List.mem_append,
      List.mem_flatMap] at member
    rcases member with (⟨portion, inside, found⟩ | ⟨pair, inside, found⟩) |
      ⟨portion, inside, found⟩
    · exact part_eq_nil.mp (frames portion inside) byte found
    · exact part_eq_nil.mp (queued pair inside) byte found
    · exact part_eq_nil.mp (numbered.started_clear due inside) byte found
  have found := List.getElem?_eq_getElem (numbered.due_lt number due)
  have whole := entire number _ found
  rw [part_append, none, List.append_nil] at whole
  exact ⟨found.trans (congrArg some whole.symm), none⟩

theorem Entire.send (entire : shared.Entire) (numbered : shared.Numbered)
    {message : List Byte}
    (messages : next.messages = shared.messages ++ [message])
    (parts : ∀ number, number ≠ shared.messages.length →
      part number (next.handed ++ next.outside) =
        part number (shared.handed ++ shared.outside))
    (own : part shared.messages.length (shared.handed ++ shared.outside) = [] →
      part shared.messages.length (next.handed ++ next.outside) = message) :
    next.Entire := by
  have new : part shared.messages.length
      (shared.handed ++ shared.outside) = [] := by
    apply part_eq_nil.mpr
    intro byte member same
    exact Nat.ne_of_lt (numbered.byte_lt byte member) same
  intro number sent found
  rw [messages] at found
  by_cases last : number = shared.messages.length
  · subst last
    rw [List.getElem?_concat_length] at found
    rw [own new]
    exact Option.some.inj found
  · rw [parts number last]
    apply entire
    have bound : number < (shared.messages ++ [message]).length :=
      (List.getElem?_eq_some_iff.mp found).1
    rw [List.length_append, List.length_singleton] at bound
    rw [List.getElem?_append_left (by omega)] at found
    exact found

/-- The kernel has got what is due when `shutdownWrite` is called. -/
theorem Delivers.before_shutdownWrite (delivers : shared.Delivers)
    (mirrors : shared.Mirrors) (numbered : shared.Numbered)
    (ordered : shared.Ordered) (retains : shared.loop.Retains)
    (order : shared.InOrder (.loop .exec))
    (calls : shared.loop.callsShutdownWrite = true) : shared.Delivered := by
  obtain ⟨head, idle⟩ := LinkLoop.callsShutdownWrite_iff.mp calls
  obtain ⟨stack, top⟩ := List.head?_eq_some_iff.mp head
  by_cases closed : shared.loop.link.HalfClosed
  · exact delivers.delivered closed
  have opened := order.opened top
  have inside : .shutdownInLoop ∈ shared.loop.stack := by
    rw [top]
    exact List.mem_cons_self
  rcases ordered.clear inside with writing | clear
  · cases idle.symm.trans writing
  · exact (delivers.entire opened closed).delivered mirrors numbered clear
      (retains.drained opened idle)

theorem Delivers.turn (delivers : shared.Delivers) (mirrors : shared.Mirrors)
    (numbered : shared.Numbered) (ordered : shared.Ordered)
    (retains : shared.loop.Retains) (late : shared.loop.link.BreaksLate)
    (order : shared.InOrder (.loop .exec)) {frame : Frame}
    {stack : List Frame} {loop : LinkLoop}
    (top : shared.loop.stack = frame :: stack)
    (ran : LinkLoop.run { shared.loop with stack } frame = .ok loop) :
    (shared.turn loop).Delivers := by
  have stays := shared.turn_stays loop
  have inside : frame ∈ shared.loop.stack := by
    rw [top]
    exact List.mem_cons_self
  have kept := (mirrors.turn top ran).2
  by_cases closed : shared.loop.link.HalfClosed
  · constructor
    · intro _ whole
      have longer := @LinkLoop.trace_prefix_of_run { shared.loop with stack }
        loop frame mirrors.sound ran
      rw [turn_loop] at whole
      exact (whole (closed.of_prefix longer)).elim
    · intro _
      have delivered := delivers.delivered closed
      rcases kept with conserved | ⟨dropped, _⟩
      · exact delivered.conserved stays conserved
      · exact delivered.dropped stays dropped
  · have conserved (opened : shared.loop.link.state ≠ .kDisconnected) :
        shared.Conserved (shared.turn loop) := by
      rcases kept with conserved | ⟨_, gone | gives⟩
      · exact conserved
      · exact (opened gone).elim
      · have keeps := retains.keeps (late.healthy closed) frame inside
        cases keeps.symm.trans gives
    constructor
    · intro opened _
      rw [turn_loop] at opened
      have before := LinkLoop.open_of_run ran opened
      exact (delivers.entire before closed).conserved stays.messages_eq
        (conserved before)
    · intro ends
      rw [turn_loop] at ends
      have calls := (LinkLoop.halfClosed_iff_of_run top ran closed).mp ends
      have delivered := delivers.before_shutdownWrite mirrors numbered
        ordered retains order calls
      obtain ⟨head, _⟩ := LinkLoop.callsShutdownWrite_iff.mp calls
      obtain ⟨_, found⟩ := List.head?_eq_some_iff.mp head
      exact delivered.conserved stays (conserved (order.opened found))

theorem SharedStep.trace_prefix (step : shared.SharedStep action next)
    (mirrors : shared.Mirrors) :
    shared.loop.link.trace <+: next.loop.link.trace := by
  cases step with
  | @turn frame stack loop _ _ ran =>
      have longer := @LinkLoop.trace_prefix_of_run { shared.loop with stack }
        loop frame mirrors.sound ran
      rw [turn_loop]
      exact longer
  | starts _ _ _ link _ =>
      simp [(shared.starts_stays _).1, link]
  | aside aside => simp [aside.untouched.trace_eq]
  | queueSend inside =>
      rw [queueSend_eq inside]
      exact List.prefix_rfl
  | @startShutdown inLoop =>
      cases inLoop with
      | _ => exact List.prefix_rfl
  | @setDisconnecting inLoop =>
      cases inLoop with
      | _ => exact List.prefix_rfl
  | startSend | sendInLoop | queueShutdown => exact List.prefix_rfl

theorem Delivers.startSend (delivers : shared.Delivers)
    (numbered : shared.Numbered) (ordered : shared.Ordered)
    (connected : shared.loop.link.state = .kConnected)
    (message : List Byte) : (shared.startSend message).Delivers := by
  have whole := (ordered.fresh connected).whole
  have bytes : (shared.startSend message).handed ++
      (shared.startSend message).outside =
      shared.handed ++ shared.outside ++
        labelled shared.messages.length message := by
    simp [SharedLink.startSend, outside]
  constructor
  · intro opened _
    apply (delivers.entire opened whole).send numbered rfl
    · intro number other
      rw [bytes, part_append, part_labelled_other (Ne.symm other),
        List.append_nil]
    · intro none
      rw [bytes, part_append, none, part_labelled, List.nil_append]
  · intro closed
    exact (whole closed).elim

theorem Delivers.sendInLoop (delivers : shared.Delivers)
    (numbered : shared.Numbered) (ordered : shared.Ordered)
    (connected : shared.loop.link.state = .kConnected)
    (message : List Byte) : (shared.sendInLoop message).Delivers := by
  have whole := (ordered.fresh connected).whole
  constructor
  · intro opened _
    apply (delivers.entire opened whole).send numbered rfl
    · intro number other
      simp [SharedLink.sendInLoop, outside,
        part_labelled_other (Ne.symm other)]
    · intro none
      simp only [outside, part_append, List.append_eq_nil_iff] at none
      simp [SharedLink.sendInLoop, outside, none, part_labelled]
  · intro closed
    exact (whole closed).elim

theorem Delivers.queueSend (delivers : shared.Delivers)
    (numbered : shared.Numbered) {index : Nat}
    (inside : index < shared.started.length) :
    (shared.queueSend index).Delivers := by
  have parts := numbered.part_queueSend inside
  rw [queueSend_eq inside] at parts ⊢
  constructor
  · intro opened whole number message found
    have same := delivers.entire opened whole number message found
    rw [part_append] at same ⊢
    rw [parts]
    exact same
  · intro closed number due
    obtain ⟨found, none⟩ := delivers.delivered closed number due
    exact ⟨found, (parts number).trans none⟩

theorem SharedStep.delivers (step : shared.SharedStep action next)
    (order : shared.InOrder action) (mirrors : shared.Mirrors)
    (numbered : shared.Numbered) (ordered : shared.Ordered)
    (retains : shared.loop.Retains) (late : shared.loop.link.BreaksLate)
    (delivers : shared.Delivers) : next.Delivers := by
  cases step with
  | turn _ top ran =>
      exact delivers.turn mirrors numbered ordered retains late order top ran
  | starts _ empty stack link waiting =>
      obtain ⟨_, conserved⟩ := mirrors.starts empty stack link waiting
      obtain ⟨started, stays⟩ := shared.starts_stays _
      constructor
      · rw [started, link]
        intro opened whole
        exact (delivers.entire opened whole).conserved stays.messages_eq
          conserved
      · rw [started, link]
        intro closed
        exact (delivers.delivered closed).conserved stays conserved
  | aside aside =>
      constructor
      · intro opened whole
        apply delivers.entire
        · rw [← aside.state_eq]
          exact opened
        · intro closed
          apply whole
          apply closed.of_prefix
          simp [aside.untouched.trace_eq]
      · intro closed
        exact delivers.delivered (closed.of_untouched aside.untouched)
  | startSend connected =>
      exact delivers.startSend numbered ordered connected _
  | queueSend inside => exact delivers.queueSend numbered inside
  | sendInLoop connected =>
      exact delivers.sendInLoop numbered ordered connected _
  | @startShutdown inLoop connected =>
      have whole := (ordered.fresh connected).whole
      cases inLoop with
      | _ => exact ⟨delivers.entire, fun closed => (whole closed).elim⟩
  | @setDisconnecting inLoop =>
      obtain ⟨opened, _⟩ := order
      cases inLoop with
      | _ => exact ⟨fun _ => delivers.entire opened, delivers.delivered⟩
  | queueShutdown =>
      have same : shared.queueShutdown.outside = shared.outside := by
        simp [SharedLink.queueShutdown, outside]
      constructor
      · intro opened whole number message found
        rw [same]
        exact delivers.entire opened whole number message found
      · intro closed number due
        rw [same]
        exact delivers.delivered closed number due

end Delivery

section Start

variable (fd : Int) (highWaterMark : Nat) (writes : List WriteResult)
variable (reads : List (Except Errno (List Byte))) (inLoop : Bool)

/-- A new connection of a server. -/
def newConnection : SharedLink :=
  .new (.newConnection (.new fd highWaterMark ⟨writes, []⟩) reads inLoop)

theorem newConnection_mirrors :
    (newConnection fd highWaterMark writes reads inLoop).Mirrors := by
  refine ⟨Buffer.new_sound _, rfl, ?_, ?_, ?_, ?_⟩
  · exact (Buffer.content_new _).symm
  · cases inLoop with
    | true => rfl
    | false => rfl
  · cases inLoop with
    | true => rfl
    | false => rfl
  · intro pair member
    cases inLoop with
    | true => cases member
    | false =>
        rw [List.mem_singleton.mp member]
        rfl

theorem newConnection_outside :
    (newConnection fd highWaterMark writes reads inLoop).outside = [] := by
  cases inLoop with
  | true => rfl
  | false => rfl

theorem newConnection_numbered :
    (newConnection fd highWaterMark writes reads inLoop).Numbered := by
  constructor
  · rw [newConnection_outside]
    simp [newConnection, new]
  · simp [newConnection, new]
  · simp [newConnection, new]
  · exact .nil

theorem newConnection_ordered :
    (newConnection fd highWaterMark writes reads inLoop).Ordered := by
  have absent : .shutdownInLoop ∉
      (newConnection fd highWaterMark writes reads inLoop).loop.stack := by
    cases inLoop with
    | true => simp [newConnection, new, LinkLoop.newConnection]
    | false => simp [newConnection, new, LinkLoop.newConnection]
  have waiting : .shutdownInLoop ∉
      (newConnection fd highWaterMark writes reads inLoop).loop.waiting := by
    cases inLoop with
    | true => simp [newConnection, new, LinkLoop.newConnection,
        LinkLoop.waiting]
    | false => simp [newConnection, new, LinkLoop.newConnection,
        LinkLoop.waiting]
  constructor
  · intro shutting
    cases shutting
  · intro member
    exact absent (List.mem_of_mem_tail member)
  · intro _
    refine ⟨absent, waiting, rfl, ?_⟩
    intro closed
    obtain ⟨queued, member⟩ := closed
    cases member
  · cases inLoop with
    | true => exact .nil
    | false => exact List.pairwise_singleton _ _
  · intro member
    exact (absent member).elim

theorem newConnection_delivers :
    (newConnection fd highWaterMark writes reads inLoop).Delivers := by
  constructor
  · intro _ _ number message found
    cases found
  · intro _ number due
    cases due

end Start

end SharedLink

section Runs

variable {fd : Int} {highWaterMark : Nat} {writes : List WriteResult}
variable {reads : List (Except Errno (List Byte))} {inLoop : Bool}
variable {actions : List SharedAction} {shared : SharedLink}

/-- What holds in every run with half-closes in order. -/
theorem shared_run
    (runs : (sharedMachine.restrict SharedLink.InOrder).Run
      (.newConnection fd highWaterMark writes reads inLoop) actions shared) :
    shared.Mirrors ∧ shared.Numbered ∧ shared.Ordered ∧
      shared.loop.Retains ∧
      (shared.loop.link.BreaksLate → shared.Delivers) := by
  induction runs with
  | refl =>
      exact ⟨SharedLink.newConnection_mirrors _ _ _ _ _,
        SharedLink.newConnection_numbered _ _ _ _ _,
        SharedLink.newConnection_ordered _ _ _ _ _,
        LinkLoop.newConnection_retains _ _ _ _ _,
        fun _ => SharedLink.newConnection_delivers _ _ _ _ _⟩
  | @step actions shared next action _ enabled stepped induction =>
      obtain ⟨enabled, order⟩ := enabled
      obtain ⟨mirrors, numbered, ordered, retains, delivers⟩ := induction
      have step := SharedLink.sharedStep_of_step enabled stepped
      refine ⟨step.mirrors mirrors, step.numbered mirrors numbered,
        step.ordered order mirrors numbered ordered,
        step.retains order mirrors retains, ?_⟩
      intro late
      have before := late.of_prefix (step.trace_prefix mirrors)
      exact step.delivers order mirrors numbered ordered retains before
        (delivers before)

/-- In a run of a link that any threads use, with half-closes in order and a
connection that does not break before the first of them, the kernel has got every
message that is due, whole, wherever `shutdownWrite` is about to be called. -/
theorem shutdownWrite_after_messages
    (runs : (sharedMachine.restrict SharedLink.InOrder).Run
      (.newConnection fd highWaterMark writes reads inLoop) actions shared)
    (enabled : (sharedMachine.restrict SharedLink.InOrder).enabled shared
      (.loop .exec))
    (late : shared.loop.link.BreaksLate)
    (calls : shared.loop.callsShutdownWrite = true) :
    shared.handed.map Prod.snd = shared.loop.link.kernel.accepted ∧
      ∀ number ∈ shared.due,
        shared.messages[number]? = some (part number shared.handed) := by
  obtain ⟨mirrors, numbered, ordered, retains, delivers⟩ := shared_run runs
  refine ⟨mirrors.handed_eq, ?_⟩
  intro number due
  have delivered := (delivers late).before_shutdownWrite mirrors numbered
    ordered retains enabled.2 calls
  exact (delivered number due).1

instance (shared : SharedLink) : Decidable shared.Clear :=
  inferInstanceAs (Decidable (∀ number ∈ shared.due,
    (∀ portion ∈ shared.frames, part number portion.bytes = []) ∧
      ∀ pair ∈ shared.queued, part number pair.2 = []))

instance (shared : SharedLink) (action : SharedAction) :
    Decidable (shared.InOrder action) := by
  unfold SharedLink.InOrder
  split
  · split <;> infer_instance
  · infer_instance
  · infer_instance

instance (shared : SharedLink) (action : SharedAction) :
    Decidable (sharedMachine.enabled shared action) := by
  show Decidable (shared.Enabled action)
  unfold SharedLink.Enabled
  split <;> infer_instance

instance (shared : SharedLink) (action : SharedAction) :
    Decidable ((sharedMachine.restrict SharedLink.InOrder).enabled shared
      action) :=
  inferInstanceAs (Decidable (sharedMachine.enabled shared action ∧
    shared.InOrder action))

/-- Two sends of other threads return before a shutdown and one does not; the
kernel takes them in parts, and the link is half-closed at the end of a write
event. -/
theorem shutdownWrite_after_messages_queued :
    ∃ actions shared,
      (sharedMachine.restrict SharedLink.InOrder).Run
        (.newConnection 5 65536 [.accepted 1, .accepted 1, .accepted 9] []
          true) actions shared ∧
      shared.loop.callsShutdownWrite = true ∧
      shared.messages = [[1, 2, 3], [4, 5], [6]] ∧ shared.due = [0, 1] ∧
      shared.loop.waiting = [.sendInLoop [6]] ∧
      shared.handed.map Prod.snd = shared.loop.link.kernel.accepted ∧
      ∀ number ∈ shared.due,
        shared.messages[number]? = some (part number shared.handed) := by
  have found : ((sharedMachine.restrict SharedLink.InOrder).execute
      (.newConnection 5 65536 [.accepted 1, .accepted 1, .accepted 9] [] true)
      [.loop .exec, .loop .exec, .loop .exec, .loop .copy, .loop .copy,
        .startSend [1, 2, 3], .queueSend 0, .startSend [4, 5], .queueSend 0,
        .startSend [6], .startShutdown false, .setDisconnecting false,
        .loop .swapFunctors, .loop .startFunctor, .loop .exec, .loop .exec,
        .loop .exec, .loop .startFunctor, .loop .exec, .loop .exec,
        .loop .exec, .loop .destroyFunctors, .queueShutdown,
        .loop (.poll POLLOUT), .loop .handleEvent, .loop .exec, .loop .exec,
        .loop .exec, .loop .exec, .loop .exec, .loop .swapFunctors,
        .queueSend 0, .loop .startFunctor, .loop .exec,
        .loop .destroyFunctors, .loop (.poll POLLOUT), .loop .handleEvent,
        .loop .exec, .loop .exec, .loop .exec, .loop .exec, .loop .exec,
        .loop .exec, .loop .exec]).any
      (fun shared =>
        (sharedMachine.restrict SharedLink.InOrder).enabled shared
          (.loop .exec) ∧
        shared.loop.link.Healthy ∧ shared.loop.callsShutdownWrite = true ∧
        shared.messages = [[1, 2, 3], [4, 5], [6]] ∧ shared.due = [0, 1] ∧
        shared.loop.waiting = [.sendInLoop [6]]) = true := by
    decide +kernel
  obtain ⟨shared, runs, accepted⟩ := Machine.run_of_execute found
  obtain ⟨enabled, healthy, calls, messages, due, waiting⟩ :=
    of_decide_eq_true accepted
  exact ⟨_, shared, runs, calls, messages, due, waiting,
    shutdownWrite_after_messages runs enabled
      (LinkedSocket.breaksLate_of_healthy healthy) calls⟩

/-- A send of another thread has returned, and its functor waits; the loop thread
shuts the link down and half-closes it at once. -/
theorem messages_overtaken :
    ∃ actions shared,
      sharedMachine.Run
        (.newConnection 5 65536 [.accepted 9] [] true) actions shared ∧
      sharedMachine.enabled shared (.loop .exec) ∧
      shared.loop.link.BreaksLate ∧
      shared.loop.callsShutdownWrite = true ∧
      shared.messages = [[1]] ∧ shared.due = [0] ∧
      shared.loop.waiting = [.sendInLoop [1]] ∧
      shared.loop.link.kernel.accepted = [] ∧
      ¬ ∀ number ∈ shared.due,
        shared.messages[number]? = some (part number shared.handed) := by
  have found : (sharedMachine.execute
      (.newConnection 5 65536 [.accepted 9] [] true)
      [.loop .exec, .loop .exec, .loop .exec, .loop .copy, .startSend [1],
        .queueSend 0, .loop .enter, .startShutdown true,
        .setDisconnecting true]).any
      (fun shared =>
        sharedMachine.enabled shared (.loop .exec) ∧
        shared.loop.link.Healthy ∧ shared.loop.callsShutdownWrite = true ∧
        shared.messages = [[1]] ∧ shared.due = [0] ∧
        shared.loop.waiting = [.sendInLoop [1]] ∧
        shared.loop.link.kernel.accepted = [] ∧
        ¬ ∀ number ∈ shared.due,
          shared.messages[number]? = some (part number shared.handed)) =
      true := by
    decide +kernel
  obtain ⟨shared, runs, accepted⟩ := Machine.run_of_execute found
  obtain ⟨enabled, healthy, fails⟩ := of_decide_eq_true accepted
  exact ⟨_, shared, runs, enabled,
    LinkedSocket.breaksLate_of_healthy healthy, fails⟩

end Runs

end Muduo
