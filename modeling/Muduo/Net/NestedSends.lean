import Muduo.Net.LinkBytes
import Muduo.Net.LinkCloses

/-!
# Sends inside callbacks

The owner hears of a completed write and of the high-water mark in the middle of a
send, and may send on the link then.  The rest of the outer message is not queued
when the high-water mark is reported; everywhere else a nested send finds all
bytes of the earlier ones queued or handed over.
-/

namespace Muduo

open Library

/-- The messages of the loop thread's sends, in the order of the calls. -/
def sentInLoop (actions : List LinkAction) : List (List Byte) :=
  actions.flatMap fun action =>
    match action with
    | .send true message => [message]
    | _ => []

namespace LinkLoop

open LinkedSocket

variable {loop next : LinkLoop} {frame : Frame} {stack : List Frame}
variable {sent : List Byte}

/-- The step does not send from within the report of the high-water mark, where
the rest of a message has still to be queued. -/
def SendsWhole (loop : LinkLoop) (action : LinkAction) : Prop :=
  ∀ message, action = .send true message → message = [] ∨
    ∀ frame ∈ loop.stack, frame.isQueueOutput = false

/-- The bytes sent are with the kernel, queued and in frames, in this order. -/
structure Whole (sent : List Byte) (loop : LinkLoop) : Prop where
  bytes_eq : loop.link.outgoing ++ loop.stack.flatMap Frame.pending = sent
  keeps : ∀ frame ∈ loop.stack, frame.givesUp = false
  under : ∀ frame ∈ loop.stack.tail, frame.isQueueOutput = false →
    frame.pending = []
  functors : ∀ functor ∈ loop.waiting, functor.frame.sends = false

theorem Whole.turn (whole : loop.Whole sent)
    (sound : loop.link.outputBuffer.Sound)
    (opened : loop.link.state ≠ .kDisconnected)
    (healthy : next.link.Healthy) (top : loop.stack = frame :: stack)
    (ran : run { loop with stack } frame = .ok next) : next.Whole sent := by
  have keeps : frame.givesUp = false := whole.keeps frame (by simp [top])
  obtain ⟨frames, becomes, carries⟩ :=
    @carries_of_run { loop with stack } next frame sound (fun _ => opened)
      keeps ran
  have same := waiting_of_run ran
  have stacked : next.stack = frames ++ stack := becomes
  have rested : ∀ under ∈ stack, under.isQueueOutput = false →
      under.pending = [] := by
    intro under member
    apply whole.under
    rw [top]
    exact member
  constructor
  · have moved : next.link.outgoing ++ frames.flatMap Frame.pending =
        loop.link.outgoing ++ frame.pending := carries.moves.outgoing_eq
    have before := whole.bytes_eq
    rw [top, List.flatMap_cons] at before
    rw [stacked, List.flatMap_append, ← List.append_assoc, moved,
      List.append_assoc, before]
  · intro pushed member
    rw [stacked] at member
    rcases List.mem_append.mp member with new | old
    · exact carries.keeps healthy pushed new
    · exact whole.keeps pushed (by simp [top, old])
  · intro pushed member
    rw [stacked] at member
    cases frames with
    | nil => exact rested pushed (List.mem_of_mem_tail member)
    | cons first frames =>
        rcases List.mem_append.mp member with new | old
        · exact carries.under pushed new
        · exact rested pushed old
  · rw [same]
    exact whole.functors

theorem Whole.under_callback (whole : loop.Whole sent)
    (callback : loop.inCallback = true) :
    ∀ frame ∈ loop.stack, frame.isQueueOutput = false →
      frame.pending = [] := by
  intro frame member
  cases top : loop.stack with
  | nil => simp [top] at member
  | cons first stack =>
      have calls : first.isCallback = true := by
        simpa [inCallback, top] using callback
      rw [top] at member
      rcases List.mem_cons.mp member with rfl | inside
      · intro _
        cases frame with
        | callback => rfl
        | _ => cases calls
      · apply whole.under
        rw [top]
        exact inside

/-- A message that is sent where nothing of another is left, or that is empty. -/
theorem Whole.send (whole : loop.Whole sent) {message : List Byte}
    (callback : loop.inCallback = true)
    (sends : message = [] ∨ ∀ frame ∈ loop.stack, frame.isQueueOutput = false) :
    (loop.call [.sendInLoop message]).Whole (sent ++ message) := by
  have under := whole.under_callback callback
  constructor
  · have before := whole.bytes_eq
    have stacked : (loop.call [.sendInLoop message]).stack.flatMap
        Frame.pending = message ++ loop.stack.flatMap Frame.pending := by
      simp [call, Frame.pending]
    rw [link_call, stacked]
    rcases sends with rfl | quiet
    · rw [List.nil_append, before, List.append_nil]
    · have nothing : loop.stack.flatMap Frame.pending = [] := by
        apply List.flatMap_eq_nil_iff.mpr
        intro frame member
        exact under frame member (quiet frame member)
      rw [nothing, List.append_nil] at before
      rw [nothing, List.append_nil, before]
  · intro frame member
    rcases List.mem_cons.mp member with rfl | old
    · rfl
    · exact whole.keeps frame old
  · exact under
  · exact whole.functors

theorem Whole.calm_of_enters {action : LinkAction} {frames : List Frame}
    (whole : loop.Whole sent)
    (other : ∀ inLoop message, action ≠ .send inLoop message)
    (enters : Enters loop action frames) :
    ∀ pushed ∈ frames, pushed.sends = false := by
  cases enters with
  | @startFunctor ran remaining functor empty functors =>
      have first : functor ∈ loop.waiting := by
        simp [waiting, functors]
      simpa using whole.functors functor first
  | send => exact (other _ _ rfl).elim
  | _ => simp [Frame.sends]

theorem Whole.under_of_enters {action : LinkAction} {frames : List Frame}
    (whole : loop.Whole sent)
    (calm : ∀ pushed ∈ frames, pushed.sends = false)
    (becomes : next.stack = frames ++ loop.stack)
    (enters : Enters loop action frames) :
    ∀ frame ∈ next.stack.tail, frame.isQueueOutput = false →
      frame.pending = [] := by
  have placed (under : ∀ frame ∈ loop.stack, frame.isQueueOutput = false →
      frame.pending = []) : ∀ frame ∈ next.stack.tail,
        frame.isQueueOutput = false → frame.pending = [] := by
    intro pushed member
    rw [becomes] at member
    rcases List.mem_append.mp (List.mem_of_mem_tail member) with new | old
    · intro _
      exact Frame.pending_of_not_sends (calm pushed new)
    · exact under pushed old
  have ofEmpty (empty : loop.stack = []) : ∀ frame ∈ loop.stack,
      frame.isQueueOutput = false → frame.pending = [] := by
    simp [empty]
  cases enters with
  | nothing =>
      rw [becomes]
      exact whole.under
  | handleEvent empty => exact placed (ofEmpty empty)
  | startFunctor empty => exact placed (ofEmpty empty)
  | enter empty => exact placed (ofEmpty empty)
  | send callback => exact placed (whole.under_callback callback)
  | shutdown callback => exact placed (whole.under_callback callback)

/-- No functor of a send is queued but by a send of another thread. -/
theorem Whole.functors_step {action : LinkAction} (whole : loop.Whole sent)
    (other : ∀ inLoop message, action ≠ .send inLoop message)
    (waits : WaitingStep loop action next) :
    ∀ functor ∈ next.waiting, functor.frame.sends = false := by
  intro functor member
  cases waits with
  | stays same =>
      rw [same] at member
      exact whole.functors functor member
  | queues queued same =>
      rw [same] at member
      rcases List.mem_append.mp member with old | new
      · exact whole.functors functor old
      · rw [List.mem_singleton.mp new]
        cases queued with
        | send => exact (other _ _ rfl).elim
        | _ => rfl
  | starts _ _ _ same =>
      apply whole.functors
      rw [same]
      exact List.mem_cons_of_mem _ member

theorem Whole.aside {action : LinkAction} (whole : loop.Whole sent)
    (turn : action ≠ .exec)
    (other : ∀ inLoop message, action ≠ .send inLoop message)
    (enabled : linkMachine.enabled loop action)
    (stepped : linkMachine.step loop action = .ok next) :
    next.Whole sent := by
  have untouched := untouched_of_step turn enabled stepped
  obtain ⟨frames, becomes, enters⟩ := enters_of_step enabled stepped turn
  have calm := whole.calm_of_enters other enters
  have outgoing : next.link.outgoing = loop.link.outgoing := by
    rw [LinkedSocket.outgoing, LinkedSocket.outgoing, untouched.kernel_eq,
      untouched.output_eq]
  have none : frames.flatMap Frame.pending = [] := by
    apply List.flatMap_eq_nil_iff.mpr
    intro pushed member
    exact Frame.pending_of_not_sends (calm pushed member)
  constructor
  · rw [outgoing, becomes, List.flatMap_append, none, List.nil_append]
    exact whole.bytes_eq
  · intro pushed member
    rw [becomes] at member
    rcases List.mem_append.mp member with new | old
    · exact Frame.keeps_of_not_sends (calm pushed new)
    · exact whole.keeps pushed old
  · exact whole.under_of_enters calm becomes enters
  · exact whole.functors_step other (waitingStep_of_step enabled stepped)

end LinkLoop

section Runs

variable {fd : Int} {highWaterMark : Nat} {kernel : Kernel}
variable {reads : List (Except Errno (List Byte))} {inLoop : Bool}
variable {actions : List LinkAction} {loop : LinkLoop}

theorem newConnection_whole (fd : Int) (highWaterMark : Nat)
    (writes : List WriteResult) (reads : List (Except Errno (List Byte)))
    (inLoop : Bool) :
    (LinkLoop.newConnection (.new fd highWaterMark ⟨writes, []⟩) reads
      inLoop).Whole [] := by
  have outgoing : (LinkedSocket.new fd highWaterMark ⟨writes, []⟩ :
      LinkedSocket Unit).outgoing = [] := by
    simp [LinkedSocket.outgoing, LinkedSocket.new]
  cases inLoop with
  | true =>
      constructor
      · simp [LinkLoop.newConnection, outgoing, Frame.pending]
      · simp [LinkLoop.newConnection, Frame.givesUp]
      · simp [LinkLoop.newConnection, Frame.pending]
      · simp [LinkLoop.newConnection, LinkLoop.waiting]
  | false =>
      constructor
      · simp [LinkLoop.newConnection, outgoing]
      · simp [LinkLoop.newConnection]
      · simp [LinkLoop.newConnection]
      · simp [LinkLoop.newConnection, LinkLoop.waiting, LinkFunctor.frame,
          Frame.sends]

/-- As long as a link is connected and sound, its bytes are those of the messages
sent. -/
theorem whole_of_run {writes : List WriteResult}
    (runs : (linkMachine.restrict LinkLoop.SendsWhole).Run
      (.newConnection (.new fd highWaterMark ⟨writes, []⟩) reads inLoop)
      actions loop)
    (inside : ∀ message, .send false message ∉ actions)
    (connected : loop.link.state = .kConnected) :
    loop.link.outputBuffer.Sound ∧
      (loop.link.Healthy → loop.Whole (sentInLoop actions).flatten) := by
  induction runs with
  | refl =>
      exact ⟨Buffer.new_sound _,
        fun _ => newConnection_whole fd highWaterMark writes reads inLoop⟩
  | @step actions loop next action before enabled stepped induction =>
      obtain ⟨enabled, sends⟩ := enabled
      have earlier : loop.link.state = .kConnected := by
        by_contra left
        exact LinkLoop.not_connected_step left enabled stepped connected
      have opened : loop.link.state ≠ .kDisconnected := by
        simp [earlier]
      obtain ⟨sound, whole⟩ := induction
        (fun message member => inside message (List.mem_append_left _ member))
        earlier
      by_cases turn : action = .exec
      · subst turn
        obtain ⟨frame, stack, top, ran⟩ := LinkLoop.exec_eq enabled stepped
        obtain ⟨soundNext, healthyBefore⟩ :=
          @LinkLoop.sound_of_run { loop with stack } next frame sound ran
        refine ⟨soundNext, ?_⟩
        intro healthy
        have same : sentInLoop (actions ++ [.exec]) = sentInLoop actions := by
          simp [sentInLoop]
        rw [same]
        exact (whole (healthyBefore healthy)).turn sound opened healthy top ran
      have untouched := LinkLoop.untouched_of_step turn enabled stepped
      have healthyBefore (healthy : next.link.Healthy) : loop.link.Healthy := by
        intro event member
        exact healthy event (untouched.trace_eq ▸ member)
      refine ⟨untouched.output_eq ▸ sound, ?_⟩
      intro healthy
      have kept := whole (healthyBefore healthy)
      by_cases called : ∃ caller message, action = .send caller message
      · obtain ⟨caller, message, rfl⟩ := called
        cases caller with
        | true =>
            cases stepped
            have pushed := kept.send enabled (sends message rfl)
            have more : (sentInLoop (actions ++ [.send true message])).flatten =
                (sentInLoop actions).flatten ++ message := by
              simp [sentInLoop]
            rw [more, LinkLoop.send, if_pos earlier]
            exact pushed
        | false => exact (inside message (by simp)).elim
      · have same : sentInLoop (actions ++ [action]) = sentInLoop actions := by
          cases action with
          | send caller message => exact (called ⟨_, _, rfl⟩).elim
          | _ => simp [sentInLoop]
        rw [same]
        exact kept.aside turn (fun caller message sent =>
          called ⟨caller, message, sent⟩) enabled stepped

/-- In a run of the loop thread in which no callback that hears of the high-water
mark sends a message on the link, the bytes that the kernel has accepted and those
queued are the messages one after the other, in the order of their sends, wherever
no send is in progress. -/
theorem messages_contiguous {writes : List WriteResult}
    (runs : (linkMachine.restrict LinkLoop.SendsWhole).Run
      (.newConnection (.new fd highWaterMark ⟨writes, []⟩) reads inLoop)
      actions loop)
    (inside : ∀ message, .send false message ∉ actions)
    (connected : loop.link.state = .kConnected)
    (healthy : loop.link.Healthy)
    (idle : ∀ frame ∈ loop.stack, frame.sends = false) :
    loop.link.kernel.accepted ++ loop.link.outputBuffer.content =
      (sentInLoop actions).flatten := by
  obtain ⟨_, whole⟩ := whole_of_run runs inside connected
  have bytes := (whole healthy).bytes_eq
  have none : loop.stack.flatMap Frame.pending = [] := by
    apply List.flatMap_eq_nil_iff.mpr
    intro frame member
    exact Frame.pending_of_not_sends (idle frame member)
  rw [none, List.append_nil] at bytes
  exact bytes

instance (loop : LinkLoop) (action : LinkAction) :
    Decidable (loop.SendsWhole action) :=
  match action with
  | .send true message =>
      decidable_of_iff (message = [] ∨
        ∀ frame ∈ loop.stack, frame.isQueueOutput = false)
        ⟨by intro sends other same; cases same; exact sends,
          fun sends => sends message rfl⟩
  | .send false _ | .poll _ | .handleEvent | .exec | .swapFunctors
  | .startFunctor | .destroyFunctors | .enter | .copy | .release
  | .shutdown _ | .forceClose _ => .isTrue (by intro _ same; cases same)

instance (loop : LinkLoop) (action : LinkAction) :
    Decidable ((linkMachine.restrict LinkLoop.SendsWhole).enabled loop
      action) :=
  inferInstanceAs (Decidable (linkMachine.enabled loop action ∧
    loop.SendsWhole action))

/-- Sends in the reports of completed writes, and an empty one in that of the
high-water mark. -/
theorem messages_contiguous_nested :
    ∃ actions loop,
      (linkMachine.restrict LinkLoop.SendsWhole).Run
        (.newConnection (.new 5 4 ⟨[.accepted 3, .accepted 1, .accepted 9],
          []⟩) [] true) actions loop ∧
      sentInLoop actions = [[1, 2, 3], [4, 5], [6, 7, 8], [], [9]] ∧
      loop.link.outputBuffer.content = [9] ∧
      loop.link.kernel.accepted ++ loop.link.outputBuffer.content =
        (sentInLoop actions).flatten := by
  have found : ((linkMachine.restrict LinkLoop.SendsWhole).execute
      (.newConnection (.new 5 4 ⟨[.accepted 3, .accepted 1, .accepted 9],
        []⟩) [] true)
      [.exec, .exec, .exec, .copy, .enter, .send true [1, 2, 3], .exec,
        .send true [4, 5], .exec, .exec, .exec, .exec, .exec,
        .send true [6, 7, 8], .exec, .exec, .send true [], .exec, .exec,
        .exec, .exec, .exec, .poll POLLOUT, .handleEvent, .exec, .exec,
        .exec, .exec, .exec, .send true [9], .exec, .exec, .exec, .exec,
        .exec]).any
      (fun loop => loop.link.state = .kConnected ∧ loop.link.Healthy ∧
        (∀ frame ∈ loop.stack, frame.sends = false) ∧
        loop.link.outputBuffer.content = [9]) = true := by
    decide +kernel
  obtain ⟨loop, runs, accepted⟩ := Machine.run_of_execute found
  obtain ⟨connected, healthy, idle, content⟩ := of_decide_eq_true accepted
  have whole := messages_contiguous runs (by simp) connected healthy idle
  exact ⟨_, loop, runs, rfl, content, whole⟩

/-- A message is cut by a partial write, its rest reaches the high-water mark, and
the message that the owner sends when it hears of it goes in between. -/
theorem message_split :
    ∃ actions loop,
      linkMachine.Run
        (.newConnection (.new 5 2 ⟨[.accepted 1, .accepted 1], []⟩) [] true)
        actions loop ∧
      sentInLoop actions = [[1, 2, 3], [4]] ∧
      (∀ message, .send false message ∉ actions) ∧
      loop.link.state = .kConnected ∧ loop.link.Healthy ∧
      (∀ frame ∈ loop.stack, frame.sends = false) ∧
      loop.link.kernel.accepted ++ loop.link.outputBuffer.content =
        [1, 4, 2, 3] := by
  have found : (linkMachine.execute
      (.newConnection (.new 5 2 ⟨[.accepted 1, .accepted 1], []⟩) [] true)
      [.exec, .exec, .exec, .copy, .enter, .send true [1, 2, 3], .exec,
        .exec, .send true [4], .exec, .exec, .exec, .exec, .exec,
        .exec]).any
      (fun loop => loop.link.state = .kConnected ∧ loop.link.Healthy ∧
        (∀ frame ∈ loop.stack, frame.sends = false) ∧
        loop.link.kernel.accepted ++ loop.link.outputBuffer.content =
          [1, 4, 2, 3]) = true := by
    decide +kernel
  obtain ⟨loop, runs, accepted⟩ := Machine.run_of_execute found
  exact ⟨_, loop, runs, rfl, by simp, of_decide_eq_true accepted⟩

end Runs

end Muduo
