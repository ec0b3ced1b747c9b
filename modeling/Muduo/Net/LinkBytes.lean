import Muduo.Net.LinkControl
import Muduo.Net.SendRuns

/-!
# Where the bytes of a link are

A byte that is sent is in a frame, in the output buffer or with the kernel.
`Carries` says that a turn of a frame loses none and keeps their order, and how
much of a message it moves.
-/

namespace Muduo

open Library

instance (event : LinkEvent) : Decidable event.IsBrokenPipe :=
  match event with
  | .directWrite (.failed .epipe)
  | .directWrite (.failed .econnreset) => .isTrue trivial
  | .directWrite (.failed .ewouldblock) | .directWrite (.failed .eintr)
  | .directWrite (.failed (.other _)) | .directWrite (.accepted _)
  | .queuedWrite _ | .writeComplete | .highWaterMark _
  | .shutdownWrite _ => .isFalse id

instance (link : LinkedSocket Unit) : Decidable link.Healthy :=
  inferInstanceAs (Decidable (∀ event ∈ link.trace, ¬ event.IsBrokenPipe))

namespace LinkedSocket

/-- An open link asks for write events as long as output is queued. -/
def Drained (link : LinkedSocket Unit) : Prop :=
  link.state ≠ .kDisconnected → link.isWriting = false →
    link.outputBuffer.content = []

/-- The bytes, the events and the wish to write stay as they are. -/
structure Untouched (link next : LinkedSocket Unit) : Prop where
  kernel_eq : next.kernel = link.kernel
  output_eq : next.outputBuffer = link.outputBuffer
  trace_eq : next.trace = link.trace
  writing_eq : next.isWriting = link.isWriting
  closed_of : link.state = .kDisconnected → next.state = .kDisconnected

/-- What a function of the sending side does to the bytes of a link, when it takes
`taken` and leaves `left`. -/
structure Moves (link next : LinkedSocket Unit) (taken left : List Byte) :
    Prop where
  output_sound : next.outputBuffer.Sound
  outgoing_eq : next.outgoing ++ left = link.outgoing ++ taken
  accepted_prefix : link.kernel.accepted <+: next.kernel.accepted
  trace_prefix : link.trace <+: next.trace
  drained : link.Drained → next.Drained

variable {link next : LinkedSocket Unit} {taken left : List Byte}

theorem Drained.untouched (untouched : Untouched link next)
    (drained : link.Drained) : next.Drained := by
  intro opened idle
  rw [untouched.output_eq]
  apply drained
  · intro closed
    exact opened (untouched.closed_of closed)
  · rw [← untouched.writing_eq]
    exact idle

theorem Untouched.moves (untouched : Untouched link next)
    (sound : link.outputBuffer.Sound) (bytes : List Byte) :
    Moves link next bytes bytes where
  output_sound := untouched.output_eq ▸ sound
  outgoing_eq := by
    rw [outgoing, outgoing, untouched.kernel_eq, untouched.output_eq]
  accepted_prefix := by simp [untouched.kernel_eq]
  trace_prefix := by simp [untouched.trace_eq]
  drained := fun drained => drained.untouched untouched

theorem Untouched.refl (link : LinkedSocket Unit) : Untouched link link :=
  ⟨rfl, rfl, rfl, rfl, id⟩

theorem Moves.record (moves : Moves link next taken left)
    (event : LinkEvent) : Moves link (next.record event) taken left where
  output_sound := moves.output_sound
  outgoing_eq := moves.outgoing_eq
  accepted_prefix := moves.accepted_prefix
  trace_prefix := moves.trace_prefix.trans (List.prefix_append _ _)
  drained := moves.drained

theorem Moves.healthy (moves : Moves link next taken left)
    (healthy : next.Healthy) : link.Healthy := by
  intro event member
  exact healthy event (moves.trace_prefix.subset member)

/-- The direct write hands a front part of the data to the kernel, and finds
the connection broken or leaves the rest. -/
theorem moves_writeDirectly (sound : link.outputBuffer.Sound)
    (data : List Byte) :
    Moves link (link.writeDirectly data).1 data
        (link.writeDirectly data).2.remaining ∧
      (link.writeDirectly data).1.outputBuffer = link.outputBuffer ∧
      ((link.writeDirectly data).1.Healthy →
        (link.writeDirectly data).2.faultError = false) ∧
      ((link.writeDirectly data).2.completed = true →
        (link.writeDirectly data).2.remaining = []) := by
  by_cases idle : !link.isWriting ∧ link.outputBuffer.readableBytes = 0
  · have empty : link.outputBuffer.content = [] := by
      apply List.eq_nil_of_length_eq_zero
      rw [sound.length_content]
      exact idle.2
    rcases kernel_write_cases link.kernel data with
      ⟨errno, result, accepted⟩ | ⟨count, bound, result, accepted⟩
    · simp only [writeDirectly, if_pos idle, result]
      refine ⟨⟨sound, ?_, ?_, List.prefix_append _ _, id⟩, rfl, ?_, ?_⟩
      · simp [outgoing, LinkedSocket.record, accepted]
      · exact accepted ▸ List.prefix_rfl
      · intro healthy
        have unbroken := healthy (.directWrite (.failed errno))
          (List.mem_append_right _ (List.mem_singleton.mpr rfl))
        cases errno with
        | epipe => exact (unbroken trivial).elim
        | econnreset => exact (unbroken trivial).elim
        | _ => rfl
      · intro completed
        cases completed
    · simp only [writeDirectly, if_pos idle, result]
      refine ⟨⟨sound, ?_, ?_, List.prefix_append _ _, id⟩, rfl, ?_, ?_⟩
      · simp [outgoing, LinkedSocket.record, accepted, empty]
      · exact accepted ▸ List.prefix_append _ _
      · intro _
        trivial
      · intro completed
        exact List.isEmpty_iff.mp completed
  · simp only [writeDirectly, if_neg idle]
    refine ⟨(Untouched.refl link).moves sound data, trivial, ?_, ?_⟩
    · intro _
      trivial
    · intro completed
      cases completed

theorem updateInPoll_untouched {flag : OptFlag}
    (updated : link.updateInPoll flag = .ok next) : Untouched link next := by
  obtain ⟨handler, changed, same⟩ := bind_eq_ok updated
  cases same
  have events : handler.events = link.handler.events := by
    cases flag with
    | DelEvent =>
        obtain ⟨_, _, removed⟩ := bind_eq_ok changed
        cases removed
        rfl
    | _ =>
        obtain ⟨_, _, registered⟩ := bind_eq_ok changed
        cases registered
        unfold FdHandler.updateHandler
        split
        · rfl
        · rfl
        · split <;> rfl
  refine ⟨rfl, rfl, rfl, ?_, id⟩
  simp only [isWriting, FdHandler.isWriting, events]

theorem moves_queueOutput (sound : link.outputBuffer.Sound)
    {remaining : List Byte} (queued : link.queueOutput remaining = .ok next) :
    Moves link next remaining [] ∧
      link.outputBuffer.content <+: next.outputBuffer.content := by
  obtain ⟨outputBuffer, appended, rest⟩ := bind_eq_ok queued
  obtain ⟨after, result, becomes⟩ := sound.append remaining
  obtain rfl := Except.ok.inj (result.symm.trans appended)
  have bytes (other : LinkedSocket Unit)
      (kernel : other.kernel = link.kernel)
      (output : other.outputBuffer = after)
      (trace : other.trace = link.trace) (writing : other.isWriting = true) :
      Moves link other remaining [] ∧
        link.outputBuffer.content <+: other.outputBuffer.content := by
    refine ⟨⟨?_, ?_, ?_, ?_, ?_⟩, ?_⟩
    · exact output ▸ becomes.sound
    · simp [outgoing, kernel, output, becomes.content_eq]
    · exact kernel ▸ List.prefix_rfl
    · exact trace ▸ List.prefix_rfl
    · intro _ _ idle
      cases writing.symm.trans idle
    · rw [output, becomes.content_eq]
      exact List.prefix_append _ _
  simp only at rest
  split at rest
  · next writing =>
      cases rest
      exact bytes _ rfl rfl rfl writing
  · have untouched := updateInPoll_untouched rest
    exact bytes next untouched.kernel_eq untouched.output_eq
      untouched.trace_eq (untouched.writing_eq.trans
        (FdHandler.isWriting_enableWriting _))

theorem moves_writeQueued (sound : link.outputBuffer.Sound)
    (writing : link.isWriting = true) {emptied : Bool}
    (written : link.writeQueued = .ok (next, emptied)) :
    Moves link next [] [] ∧ next.isWriting = true ∧
      (emptied = true → next.outputBuffer.content = []) := by
  have size := sound.length_content
  unfold writeQueued at written
  generalize outcome : link.kernel.write link.outputBuffer.content = answer
    at written
  obtain ⟨answered, kernel⟩ := answer
  have answers := kernel_write_cases link.kernel link.outputBuffer.content
  rw [outcome] at answers
  simp only at answers
  have drained (other : LinkedSocket Unit) (asks : other.isWriting = true) :
      link.Drained → other.Drained := by
    intro _ _ idle
    cases asks.symm.trans idle
  rcases answers with
    ⟨errno, result, accepted⟩ | ⟨count, bound, result, accepted⟩
  · obtain rfl : answered = .failed errno := result
    cases written
    refine ⟨⟨sound, ?_, ?_, List.prefix_append _ _, drained _ writing⟩,
      writing, by simp⟩
    · simp [outgoing, LinkedSocket.record, accepted]
    · exact accepted ▸ List.prefix_rfl
  · obtain rfl : answered = .accepted count := result
    simp only at written
    split at written
    · obtain ⟨outputBuffer, retrieved, rest⟩ := bind_eq_ok written
      obtain ⟨after, found, becomes⟩ := sound.retrieve (size ▸ bound)
      obtain rfl := Except.ok.inj (found.symm.trans retrieved)
      cases rest
      refine ⟨⟨becomes.sound, ?_, ?_, List.prefix_append _ _,
        drained _ writing⟩, writing, ?_⟩
      · simp [outgoing, LinkedSocket.record, accepted, becomes.content_eq]
      · exact accepted ▸ List.prefix_append _ _
      · intro empty
        apply List.eq_nil_of_length_eq_zero
        rw [becomes.sound.length_content]
        simpa using empty
    · next none =>
        obtain rfl : count = 0 := by omega
        cases written
        refine ⟨⟨sound, ?_, ?_, List.prefix_append _ _, drained _ writing⟩,
          writing, by simp⟩
        · simp [outgoing, LinkedSocket.record, accepted]
        · exact accepted ▸ List.prefix_append _ _

theorem moves_prepare (sound : link.outputBuffer.Sound)
    (prepared : link.prepare = .ok next) : Moves link next [] [] := by
  have untouched := updateInPoll_untouched prepared
  have whole : Untouched link next := by
    refine ⟨untouched.kernel_eq, untouched.output_eq, untouched.trace_eq, ?_,
      untouched.closed_of⟩
    exact untouched.writing_eq.trans (FdHandler.isWriting_enableReading _)
  exact whole.moves sound []

theorem moves_startClose (sound : link.outputBuffer.Sound)
    (closed : link.startClose = .ok next) : Moves link next [] [] := by
  obtain ⟨_, gone, _⟩ := startClose_eq closed
  obtain ⟨_, _, updated⟩ := bind_eq_ok closed
  have untouched := updateInPoll_untouched updated
  have kernel : next.kernel = link.kernel := untouched.kernel_eq
  have output : next.outputBuffer = link.outputBuffer := untouched.output_eq
  have trace : next.trace = link.trace := untouched.trace_eq
  refine ⟨output ▸ sound, ?_, ?_, ?_, ?_⟩
  · rw [outgoing, outgoing, kernel, output]
  · exact kernel ▸ List.prefix_rfl
  · exact trace ▸ List.prefix_rfl
  · intro _ opened
    exact (opened gone).elim

end LinkedSocket

namespace Frame

/-- The bytes that the frame has still to hand over or to queue. -/
def pending : Frame → List Byte
  | sendInLoop message => message
  | sendRest _ sending => sending.remaining
  | queueOutput remaining => remaining
  | _ => []

/-- The frame is a part of a send. -/
def sends : Frame → Bool
  | sendInLoop _ | sendRest _ _ | queueOutput _ => true
  | _ => false

/-- The frame begins a send. -/
def begins : Frame → Bool
  | sendInLoop _ => true
  | _ => false

/-- The frame gives the rest of its message up. -/
def givesUp : Frame → Bool
  | sendRest _ sending => sending.faultError
  | _ => false

def isQueueOutput : Frame → Bool
  | queueOutput _ => true
  | _ => false

theorem pending_of_not_sends {frame : Frame} (other : frame.sends = false) :
    frame.pending = [] := by
  cases frame with
  | sendInLoop | sendRest | queueOutput => cases other
  | _ => rfl

theorem keeps_of_not_sends {frame : Frame} (other : frame.sends = false) :
    frame.givesUp = false := by
  cases frame with
  | sendRest => cases other
  | _ => rfl

end Frame

namespace LinkLoop

open LinkedSocket

variable {loop next : LinkLoop} {frame : Frame} {frames : List Frame}

@[simp] theorem link_call (loop : LinkLoop) (frames : List Frame) :
    (loop.call frames).link = loop.link := rfl

@[simp] theorem link_setLink (loop : LinkLoop) (link : LinkedSocket Unit) :
    (loop.setLink link).link = link := rfl

/-- What a turn of a frame does to the bytes: it leaves at most one frame of the
send that it belongs to, and under a callback only the bytes of `queueOutput`. -/
structure Carries (loop : LinkLoop) (frame : Frame) (next : LinkLoop)
    (frames : List Frame) : Prop where
  moves : Moves loop.link next.link frame.pending
    (frames.flatMap Frame.pending)
  content_prefix : frame.sends = true →
    loop.link.outputBuffer.content <+: next.link.outputBuffer.content
  sends_le : frames.countP Frame.sends ≤ frame.sends.toNat
  keeps : next.link.Healthy → ∀ pushed ∈ frames, pushed.givesUp = false
  under : ∀ pushed ∈ frames.tail, pushed.isQueueOutput = false →
    pushed.pending = []

theorem carries_aside (moves : Moves loop.link next.link [] [])
    (other : frame.sends = false)
    (calm : ∀ pushed ∈ frames, pushed.sends = false) :
    Carries loop frame next frames where
  moves := by
    have none : frames.flatMap Frame.pending = [] := by
      apply List.flatMap_eq_nil_iff.mpr
      intro pushed member
      exact Frame.pending_of_not_sends (calm pushed member)
    rw [none, Frame.pending_of_not_sends other]
    exact moves
  content_prefix := by
    intro sends
    cases other.symm.trans sends
  sends_le := by
    have none : frames.countP Frame.sends = 0 := by
      apply List.countP_eq_zero.mpr
      intro pushed member
      rw [calm pushed member]
      exact Bool.false_ne_true
    rw [none]
    exact Nat.zero_le _
  keeps := by
    intro _ pushed member
    exact Frame.keeps_of_not_sends (calm pushed member)
  under := by
    intro pushed member _
    exact Frame.pending_of_not_sends
      (calm pushed (List.mem_of_mem_tail member))

theorem carries_callIf {condition : Bool} {pushed : Frame}
    (sound : loop.link.outputBuffer.Sound) (other : frame.sends = false)
    (calm : pushed.sends = false) :
    ∃ frames, (loop.callIf condition pushed).stack = frames ++ loop.stack ∧
      Carries loop frame (loop.callIf condition pushed) frames := by
  have still := (Untouched.refl loop.link).moves sound []
  cases condition with
  | true =>
      refine ⟨[pushed], rfl, carries_aside still other ?_⟩
      simpa using calm
  | false => exact ⟨[], rfl, carries_aside still other (by simp)⟩

theorem carries_handleRead (sound : loop.link.outputBuffer.Sound)
    (ran : loop.handleRead = .ok next) :
    ∃ frames, next.stack = frames ++ loop.stack ∧
      Carries loop .handleRead next frames := by
  have still : ∀ inputBuffer,
      Moves loop.link { loop.link with inputBuffer } [] [] := by
    intro inputBuffer
    have untouched : Untouched loop.link { loop.link with inputBuffer } :=
      ⟨rfl, rfl, rfl, rfl, id⟩
    exact untouched.moves sound []
  cases readStep_of_handleRead ran with
  | failed _ => exact ⟨[], rfl, carries_aside (still _) rfl (by simp)⟩
  | ended _ =>
      exact ⟨[.handleClose], rfl,
        carries_aside (still _) rfl (by simp [Frame.sends])⟩
  | received _ _ =>
      exact ⟨[.callback], rfl,
        carries_aside (still _) rfl (by simp [Frame.sends])⟩

theorem carries_handleWrite (sound : loop.link.outputBuffer.Sound)
    (ran : loop.handleWrite = .ok next) :
    ∃ frames, next.stack = frames ++ loop.stack ∧
      Carries loop .handleWrite next frames := by
  cases writeStep_of_handleWrite ran with
  | idle =>
      exact ⟨[], rfl, carries_aside ((Untouched.refl _).moves sound []) rfl
        (by simp)⟩
  | queued writing written =>
      obtain ⟨moves, _, _⟩ := moves_writeQueued sound writing written
      exact ⟨[], rfl, carries_aside moves rfl (by simp)⟩
  | @emptied link registered writing written updated =>
      obtain ⟨moves, _, empty⟩ := moves_writeQueued sound writing written
      have untouched := updateInPoll_untouched updated
      have kernel : registered.kernel = link.kernel :=
        untouched.kernel_eq
      have output : registered.outputBuffer = link.outputBuffer :=
        untouched.output_eq
      have trace : registered.trace = link.trace := untouched.trace_eq
      have moved : Moves loop.link registered [] [] := by
        refine ⟨output ▸ moves.output_sound, ?_,
          kernel ▸ moves.accepted_prefix, trace ▸ moves.trace_prefix, ?_⟩
        · rw [outgoing, kernel, output]
          exact moves.outgoing_eq
        · intro _ _ _
          rw [output]
          exact empty rfl
      exact ⟨[.callback, .handleWriteEnd], rfl,
        carries_aside (moved.record .writeComplete) rfl
          (by simp [Frame.sends])⟩

theorem carries_sendInLoop (sound : loop.link.outputBuffer.Sound)
    (opened : loop.link.state ≠ .kDisconnected) (message : List Byte) :
    ∃ frames, (loop.sendInLoop message).stack = frames ++ loop.stack ∧
      Carries loop (.sendInLoop message) (loop.sendInLoop message)
        frames := by
  obtain ⟨moves, output, unbroken, completes⟩ :=
    moves_writeDirectly sound message
  rw [sendInLoop, if_neg opened]
  generalize loop.link.writeDirectly message = outcome
    at moves output unbroken completes
  obtain ⟨link, sending⟩ := outcome
  simp only at moves output unbroken completes ⊢
  split
  · next completed =>
      have recorded := moves.record .writeComplete
      refine ⟨[.callback, .sendRest message.length sending], rfl, ?_, ?_,
        Nat.le_refl _, ?_, ?_⟩
      · simpa [Frame.pending] using recorded
      · intro _
        exact output ▸ List.prefix_rfl
      · intro healthy
        have before : link.Healthy := by
          intro event member
          exact healthy event (List.mem_append_left _ member)
        simp [Frame.givesUp, unbroken before]
      · simp [Frame.pending, completes completed]
  · refine ⟨[.sendRest message.length sending], rfl, ?_, ?_,
      Nat.le_refl _, ?_, ?_⟩
    · simpa [Frame.pending] using moves
    · intro _
      exact output ▸ List.prefix_rfl
    · intro healthy
      simp [Frame.givesUp, unbroken healthy]
    · simp

theorem carries_sendRest (sound : loop.link.outputBuffer.Sound)
    {length : Nat} {sending : Sending} (keeps : sending.faultError = false)
    (ran : loop.sendRest length sending = .ok next) :
    ∃ frames, next.stack = frames ++ loop.stack ∧
      Carries loop (.sendRest length sending) next frames := by
  have still := (Untouched.refl loop.link).moves sound sending.remaining
  obtain ⟨_, _, rest⟩ := bind_eq_ok ran
  split at rest
  · split at rest
    · cases rest
      have recorded := still.record (.highWaterMark
        (loop.link.outputBuffer.readableBytes + sending.remaining.length))
      refine ⟨[.callback, .queueOutput sending.remaining], rfl, ?_, ?_,
        Nat.le_refl _, ?_, ?_⟩
      · simpa [Frame.pending] using recorded
      · intro _
        exact List.prefix_rfl
      · simp [Frame.givesUp]
      · simp [Frame.isQueueOutput]
    · cases rest
      refine ⟨[.queueOutput sending.remaining], rfl, ?_, ?_,
        Nat.le_refl _, ?_, ?_⟩
      · simpa [Frame.pending] using still
      · intro _
        exact List.prefix_rfl
      · simp [Frame.givesUp]
      · simp
  · next done =>
      cases rest
      have nothing : sending.remaining = [] := by
        simpa [keeps] using done
      refine ⟨[], rfl, ?_, ?_, Nat.zero_le _, ?_, ?_⟩
      · simpa [Frame.pending, nothing] using still
      · intro _
        exact List.prefix_rfl
      · simp
      · simp

/-- A turn of a frame carries the bytes, unless it gives up the rest of a message
or finds the link closed when a send begins. -/
theorem carries_of_run (sound : loop.link.outputBuffer.Sound)
    (opened : frame.begins = true → loop.link.state ≠ .kDisconnected)
    (keeps : frame.givesUp = false) (ran : loop.run frame = .ok next) :
    ∃ frames, next.stack = frames ++ loop.stack ∧
      Carries loop frame next frames := by
  have still := (Untouched.refl loop.link).moves sound []
  cases frame with
  | prepare =>
      obtain ⟨link, prepared, same⟩ := bind_eq_ok ran
      cases same
      exact ⟨[], rfl, carries_aside (moves_prepare sound prepared) rfl
        (by simp)⟩
  | eventError =>
      cases ran
      exact ⟨[], rfl, carries_aside still rfl (by simp)⟩
  | eventHangup =>
      cases ran
      exact carries_callIf sound rfl rfl
  | eventInput =>
      cases ran
      exact carries_callIf sound rfl rfl
  | eventOutput =>
      cases ran
      exact carries_callIf sound rfl rfl
  | handleRead => exact carries_handleRead sound ran
  | handleWrite => exact carries_handleWrite sound ran
  | handleWriteEnd =>
      cases ran
      exact carries_callIf sound rfl rfl
  | handleClose =>
      obtain ⟨link, closed, same⟩ := bind_eq_ok ran
      cases same
      exact ⟨[.delConnection], rfl, carries_aside
        (moves_startClose sound closed) rfl (by simp [Frame.sends])⟩
  | delConnection =>
      cases ran
      exact ⟨[.scopeEnd], rfl,
        carries_aside still rfl (by simp [Frame.sends])⟩
  | scopeEnd =>
      cases ran
      exact ⟨[], rfl, carries_aside still rfl (by simp)⟩
  | callback =>
      cases ran
      exact ⟨[], rfl, carries_aside still rfl (by simp)⟩
  | sendInLoop message =>
      cases ran
      exact carries_sendInLoop sound (opened rfl) message
  | sendRest length sending => exact carries_sendRest sound keeps ran
  | queueOutput remaining =>
      obtain ⟨link, queued, same⟩ := bind_eq_ok ran
      cases same
      obtain ⟨moves, longer⟩ := moves_queueOutput sound queued
      refine ⟨[], rfl, ?_, ?_, Nat.zero_le _, ?_, ?_⟩
      · simpa [Frame.pending] using moves
      · intro _
        exact longer
      · simp
      · simp
  | shutdownInLoop =>
      cases ran
      refine ⟨[], rfl, carries_aside ?_ rfl (by simp)⟩
      show Moves loop.link loop.link.shutdownInLoop [] []
      unfold LinkedSocket.shutdownInLoop
      split
      · exact still
      · exact still.record _
  | forceCloseInLoop =>
      cases ran
      exact carries_callIf sound rfl rfl

/-- A turn of a frame carries the bytes or drops those that the frame has. -/
theorem carries_or_drops (sound : loop.link.outputBuffer.Sound)
    (ran : loop.run frame = .ok next) :
    (∃ frames, next.stack = frames ++ loop.stack ∧
      Carries loop frame next frames) ∨
    (frame.sends = true ∧ next = loop ∧
      (loop.link.state = .kDisconnected ∨ frame.givesUp = true)) := by
  cases frame with
  | sendInLoop message =>
      by_cases closed : loop.link.state = .kDisconnected
      · cases ran
        refine .inr ⟨rfl, ?_, .inl closed⟩
        rw [sendInLoop, if_pos closed]
      · exact .inl (carries_of_run sound (fun _ => closed) rfl ran)
  | sendRest length sending =>
      by_cases faulty : sending.faultError = true
      · obtain ⟨_, _, rest⟩ := bind_eq_ok ran
        rw [if_neg (by simp [faulty])] at rest
        cases rest
        exact .inr ⟨rfl, rfl, .inr faulty⟩
      · rw [Bool.not_eq_true] at faulty
        exact .inl (carries_of_run sound (by intro starts; cases starts)
          faulty ran)
  | _ =>
      exact .inl (carries_of_run sound (by intro starts; cases starts) rfl
        ran)

theorem sound_of_run (sound : loop.link.outputBuffer.Sound)
    (ran : loop.run frame = .ok next) :
    next.link.outputBuffer.Sound ∧
      (next.link.Healthy → loop.link.Healthy) := by
  rcases carries_or_drops sound ran with ⟨_, _, carries⟩ | ⟨_, rfl, _⟩
  · exact ⟨carries.moves.output_sound, carries.moves.healthy⟩
  · exact ⟨sound, id⟩

theorem untouched_of_step {action : LinkAction} (other : action ≠ .exec)
    (enabled : linkMachine.enabled loop action)
    (stepped : linkMachine.step loop action = .ok next) :
    Untouched loop.link next.link := by
  cases action with
  | exec => exact (other rfl).elim
  | startFunctor =>
      cases linkStep_of_step enabled stepped with
      | startFunctor => exact .refl _
  | send inLoop message =>
      cases stepped
      unfold send
      split
      · split
        · exact .refl _
        · exact .refl _
      · exact .refl _
  | shutdown inLoop =>
      cases stepped
      unfold shutdown
      split
      · next connected =>
          split
          · exact ⟨rfl, rfl, rfl, rfl, fun closed => by simp [connected] at closed⟩
          · exact ⟨rfl, rfl, rfl, rfl, fun closed => by simp [connected] at closed⟩
      · exact .refl _
  | forceClose inLoop =>
      cases stepped
      unfold forceClose
      split
      · next connected =>
          exact ⟨rfl, rfl, rfl, rfl, fun closed => by simp [connected] at closed⟩
      · exact .refl _
  | poll | handleEvent | swapFunctors | destroyFunctors | enter | copy
  | release =>
      cases stepped
      exact ⟨rfl, rfl, rfl, rfl, id⟩

end LinkLoop

end Muduo
