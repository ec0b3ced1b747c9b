import Muduo.Net.LinkBytes
import Muduo.Net.LinkCloses

/-!
# Half-closes

`shutdownInLoop` is the only function that half-closes a link.  It is queued by
`shutdown` or called at the end of a write event, and it does nothing as long as
the link asks for write events; so it finds the queue of an open link empty.
-/

namespace Muduo

open Library

namespace LinkedSocket

/-- `sockets::shutdownWrite` was called. -/
def HalfClosed (link : LinkedSocket Unit) : Prop :=
  ∃ queued, .shutdownWrite queued ∈ link.trace

/-- The connection breaks, if it does, after the half-close. -/
def BreaksLate (link : LinkedSocket Unit) : Prop :=
  ∀ before event after, link.trace = before ++ event :: after →
    event.IsBrokenPipe → ∃ queued, .shutdownWrite queued ∈ before

variable {link next : LinkedSocket Unit}

theorem BreaksLate.healthy (late : link.BreaksLate)
    (whole : ¬ link.HalfClosed) : link.Healthy := by
  intro event member broken
  obtain ⟨before, after, split⟩ := List.append_of_mem member
  obtain ⟨queued, earlier⟩ := late before event after split broken
  apply whole
  refine ⟨queued, ?_⟩
  rw [split]
  exact List.mem_append_left _ earlier

theorem breaksLate_of_healthy (healthy : link.Healthy) :
    link.BreaksLate := by
  intro before event after split broken
  have member : event ∈ link.trace := by
    rw [split]
    exact List.mem_append_right _ List.mem_cons_self
  exact (healthy event member broken).elim

theorem BreaksLate.of_prefix (late : next.BreaksLate)
    (longer : link.trace <+: next.trace) : link.BreaksLate := by
  intro before event after split broken
  obtain ⟨more, same⟩ := longer
  apply late before event (after ++ more) ?_ broken
  rw [← same, split, List.append_assoc, List.cons_append]

theorem HalfClosed.of_prefix (closed : link.HalfClosed)
    (longer : link.trace <+: next.trace) : next.HalfClosed := by
  obtain ⟨queued, member⟩ := closed
  exact ⟨queued, longer.subset member⟩

theorem HalfClosed.of_record {event : LinkEvent}
    (closed : (link.record event).HalfClosed)
    (other : ∀ queued, event ≠ .shutdownWrite queued) : link.HalfClosed := by
  obtain ⟨queued, member⟩ := closed
  rcases List.mem_append.mp member with old | new
  · exact ⟨queued, old⟩
  · exact (other queued (List.mem_singleton.mp new).symm).elim

theorem HalfClosed.of_untouched (closed : next.HalfClosed)
    (untouched : Untouched link next) : link.HalfClosed := by
  obtain ⟨queued, member⟩ := closed
  exact ⟨queued, untouched.trace_eq ▸ member⟩

theorem HalfClosed.of_writeDirectly {data : List Byte}
    (closed : (link.writeDirectly data).1.HalfClosed) : link.HalfClosed := by
  unfold writeDirectly at closed
  split at closed
  · generalize link.kernel.write data = answer at closed
    obtain ⟨result, kernel⟩ := answer
    have recorded (event : LinkEvent)
        (other : ∀ queued, event ≠ .shutdownWrite queued)
        (closed : ({ link with kernel }.record event).HalfClosed) :
        link.HalfClosed := by
      obtain ⟨queued, member⟩ := closed.of_record other
      exact ⟨queued, member⟩
    cases result with
    | accepted => exact recorded _ (by simp) closed
    | failed => exact recorded _ (by simp) closed
  · exact closed

theorem HalfClosed.of_writeQueued {emptied : Bool}
    (written : link.writeQueued = .ok (next, emptied))
    (closed : next.HalfClosed) : link.HalfClosed := by
  unfold writeQueued at written
  generalize link.kernel.write link.outputBuffer.content = answer at written
  obtain ⟨result, kernel⟩ := answer
  have recorded (closed : ({ link with kernel }.record
      (.queuedWrite result)).HalfClosed) : link.HalfClosed := by
    obtain ⟨queued, member⟩ := closed.of_record (by simp)
    exact ⟨queued, member⟩
  cases result with
  | failed =>
      cases written
      exact recorded closed
  | accepted count =>
      simp only at written
      split at written
      · obtain ⟨outputBuffer, _, rest⟩ := bind_eq_ok written
        cases rest
        exact recorded closed
      · cases written
        exact recorded closed

end LinkedSocket

namespace LinkLoop

open LinkedSocket

variable {loop next : LinkLoop} {frame : Frame} {frames stack : List Frame}

theorem link_callIf (loop : LinkLoop) (condition : Bool) (frame : Frame) :
    (loop.callIf condition frame).link = loop.link := by
  cases condition with
  | true => rfl
  | false => rfl

theorem halfClosed_of_handleRead (ran : loop.handleRead = .ok next)
    (closed : next.link.HalfClosed) : loop.link.HalfClosed := by
  cases readStep_of_handleRead ran with
  | failed _ => exact closed
  | ended _ => exact closed
  | received _ _ => exact closed

theorem halfClosed_of_handleWrite (ran : loop.handleWrite = .ok next)
    (closed : next.link.HalfClosed) : loop.link.HalfClosed := by
  cases writeStep_of_handleWrite ran with
  | idle => exact closed
  | queued _ written => exact closed.of_writeQueued written
  | @emptied link registered _ written updated =>
      have recorded : registered.HalfClosed := closed.of_record (by simp)
      have before : link.disableWriting.HalfClosed :=
        recorded.of_untouched (updateInPoll_untouched updated)
      exact before.of_writeQueued written

theorem halfClosed_of_sendInLoop {message : List Byte}
    (closed : (loop.sendInLoop message).link.HalfClosed) :
    loop.link.HalfClosed := by
  unfold sendInLoop at closed
  split at closed
  · exact closed
  · simp only at closed
    split at closed
    · have before : (loop.link.writeDirectly message).1.HalfClosed :=
        closed.of_record (by simp)
      exact before.of_writeDirectly
    · exact closed.of_writeDirectly

theorem halfClosed_of_sendRest {length : Nat} {sending : Sending}
    (ran : loop.sendRest length sending = .ok next)
    (closed : next.link.HalfClosed) : loop.link.HalfClosed := by
  obtain ⟨_, _, rest⟩ := bind_eq_ok ran
  split at rest
  · split at rest
    · cases rest
      exact closed.of_record (by simp)
    · cases rest
      exact closed
  · cases rest
    exact closed

theorem halfClosed_of_run (other : frame ≠ .shutdownInLoop)
    (ran : loop.run frame = .ok next) (closed : next.link.HalfClosed) :
    loop.link.HalfClosed := by
  cases frame with
  | shutdownInLoop => exact (other rfl).elim
  | prepare =>
      obtain ⟨link, prepared, same⟩ := bind_eq_ok ran
      cases same
      have before : loop.link.enableReading.HalfClosed :=
        HalfClosed.of_untouched closed (updateInPoll_untouched prepared)
      exact before
  | handleRead => exact halfClosed_of_handleRead ran closed
  | handleWrite => exact halfClosed_of_handleWrite ran closed
  | handleClose =>
      obtain ⟨link, ended, same⟩ := bind_eq_ok ran
      cases same
      obtain ⟨_, _, updated⟩ := bind_eq_ok ended
      have before : (loop.link.setState .kDisconnected).disableAll.HalfClosed :=
        HalfClosed.of_untouched closed (updateInPoll_untouched updated)
      exact before
  | sendInLoop message =>
      cases ran
      exact halfClosed_of_sendInLoop closed
  | sendRest length sending => exact halfClosed_of_sendRest ran closed
  | queueOutput remaining =>
      obtain ⟨link, queued, same⟩ := bind_eq_ok ran
      cases same
      obtain ⟨outputBuffer, _, rest⟩ := bind_eq_ok queued
      simp only at rest
      split at rest
      · cases rest
        exact closed
      · have before : ({ loop.link with outputBuffer } :
            LinkedSocket Unit).enableWriting.HalfClosed :=
          HalfClosed.of_untouched closed (updateInPoll_untouched rest)
        exact before
  | eventHangup | eventInput | eventOutput | handleWriteEnd
  | forceCloseInLoop =>
      cases ran
      rw [link_callIf] at closed
      exact closed
  | eventError | delConnection | scopeEnd | callback =>
      cases ran
      exact closed

/-- `sockets::shutdownWrite` is about to be called. -/
def callsShutdownWrite (loop : LinkLoop) : Bool :=
  match loop.stack with
  | .shutdownInLoop :: _ => !loop.link.isWriting
  | _ => false

theorem callsShutdownWrite_iff :
    loop.callsShutdownWrite = true ↔
      loop.stack.head? = some .shutdownInLoop ∧
        loop.link.isWriting = false := by
  unfold callsShutdownWrite
  split
  · next stack top => simp [top]
  · next other =>
      constructor
      · intro wrong
        cases wrong
      · intro here
        cases top : loop.stack with
        | nil => simp [top] at here
        | cons frame stack =>
            obtain ⟨head, _⟩ := here
            rw [top, List.head?_cons, Option.some.injEq] at head
            subst head
            exact (other stack top).elim

/-- A turn of a frame half-closes the link where it calls `shutdownWrite`. -/
theorem halfClosed_iff_of_run (top : loop.stack = frame :: stack)
    (ran : run { loop with stack } frame = .ok next)
    (whole : ¬ loop.link.HalfClosed) :
    next.link.HalfClosed ↔ loop.callsShutdownWrite = true := by
  rw [callsShutdownWrite_iff, top]
  constructor
  · intro closed
    by_cases shuts : frame = .shutdownInLoop
    · subst shuts
      refine ⟨rfl, ?_⟩
      cases ran
      rw [Bool.eq_false_iff]
      intro writing
      apply whole
      rw [link_setLink, shutdownInLoop, if_pos writing] at closed
      exact closed
    · have before := halfClosed_of_run shuts ran closed
      exact (whole before).elim
  · intro here
    obtain ⟨head, idle⟩ := here
    obtain rfl := Option.some.inj head
    cases ran
    refine ⟨loop.link.outputBuffer.content, ?_⟩
    rw [link_setLink, shutdownInLoop, if_neg (by simp [idle])]
    exact List.mem_append_right _ (List.mem_singleton.mpr rfl)

/-- A link in the state `kDisconnecting` may be half-closed when a write event has
emptied its queue; no other frame leads to `shutdownInLoop`. -/
theorem defers_of_run (ran : loop.run frame = .ok next)
    (becomes : next.stack = frames ++ loop.stack)
    (continues : Frame.Continues frame frames)
    (pushed : .shutdownInLoop ∈ frames) :
    frame = .handleWriteEnd ∧ loop.link.state = .kDisconnecting ∧
      next.link = loop.link := by
  cases continues with
  | deferred =>
      cases ran
      by_cases deferring : loop.link.state = .kDisconnecting
      · refine ⟨rfl, deferring, ?_⟩
        rw [link_callIf]
      · simp [callIf, deferring] at becomes
  | _ => simp at pushed

theorem open_of_run (ran : loop.run frame = .ok next)
    (opened : next.link.state ≠ .kDisconnected) :
    loop.link.state ≠ .kDisconnected := by
  by_cases closes : frame = .handleClose
  · subst closes
    obtain ⟨_, closed, _⟩ := run_handleClose ran
    exact (opened closed).elim
  · rw [← state_of_run closes ran]
    exact opened

theorem trace_prefix_of_run (sound : loop.link.outputBuffer.Sound)
    (ran : loop.run frame = .ok next) :
    loop.link.trace <+: next.link.trace := by
  rcases carries_or_drops sound ran with ⟨_, _, carries⟩ | ⟨_, rfl, _⟩
  · exact carries.moves.trace_prefix
  · exact List.prefix_rfl

/-- An open link loses no byte as long as its connection is not broken. -/
structure Retains (loop : LinkLoop) : Prop where
  drained : loop.link.Drained
  keeps : loop.link.Healthy → ∀ frame ∈ loop.stack, frame.givesUp = false

theorem Retains.turn (retains : loop.Retains)
    (sound : loop.link.outputBuffer.Sound)
    (top : loop.stack = frame :: stack)
    (ran : run { loop with stack } frame = .ok next) : next.Retains := by
  have under (healthy : loop.link.Healthy) (pushed : Frame)
      (member : pushed ∈ stack) : pushed.givesUp = false := by
    apply retains.keeps healthy
    rw [top]
    exact List.mem_cons_of_mem _ member
  rcases @carries_or_drops { loop with stack } next frame sound ran with
    ⟨frames, becomes, carries⟩ | ⟨_, rfl, _⟩
  · refine ⟨carries.moves.drained retains.drained, ?_⟩
    intro healthy pushed member
    rw [becomes] at member
    rcases List.mem_append.mp member with new | old
    · exact carries.keeps healthy pushed new
    · exact under (carries.moves.healthy healthy) pushed old
  · exact ⟨retains.drained, under⟩

theorem Retains.untouched (retains : loop.Retains)
    (untouched : Untouched loop.link next.link)
    (calm : ∀ frame ∈ next.stack, frame ∈ loop.stack ∨
      frame.givesUp = false) : next.Retains := by
  refine ⟨retains.drained.untouched untouched, ?_⟩
  intro healthy frame member
  rcases calm frame member with old | calm
  · apply retains.keeps ?_ frame old
    intro event member
    exact healthy event (untouched.trace_eq ▸ member)
  · exact calm

theorem Retains.call (retains : loop.Retains) (calm : frame.givesUp = false) :
    (loop.call [frame]).Retains := by
  refine ⟨retains.drained, ?_⟩
  intro healthy pushed member
  rcases List.mem_cons.mp member with rfl | old
  · exact calm
  · exact retains.keeps healthy pushed old

theorem newConnection_retains (fd : Int) (highWaterMark : Nat)
    (kernel : Kernel) (reads : List (Except Errno (List Byte)))
    (inLoop : Bool) :
    (newConnection (.new fd highWaterMark kernel) reads inLoop).Retains := by
  constructor
  · intro _ _
    exact Buffer.content_new _
  · intro _ frame member
    cases inLoop with
    | true =>
        simp only [newConnection, if_true, List.mem_cons,
          List.not_mem_nil, or_false] at member
        rcases member with rfl | rfl | rfl
        · rfl
        · rfl
        · rfl
    | false => simp [newConnection] at member

end LinkLoop

end Muduo
