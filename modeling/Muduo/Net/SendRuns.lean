import Mathlib.Algebra.Group.Nat.Defs
import Muduo.Library.Machine
import Muduo.Net.LinkedSocket

/-!
# The sending side of a link

`Flow before after data` says what every function of the sending side does: it
keeps the link steady, half-closes only behind an empty queue and, unless a
direct write met a broken connection, adds exactly `data` to what the kernel
accepted followed by what is queued.  Flows compose, so a run of sends,
shutdowns and write events is a flow of the messages it took.
-/

namespace Muduo

open Library

/-- A direct write that ended in `EPIPE` or `ECONNRESET`. -/
def LinkEvent.IsBrokenPipe : LinkEvent → Prop
  | .directWrite (.failed .epipe) => True
  | .directWrite (.failed .econnreset) => True
  | _ => False

/-- Callbacks that do not call back into the link. -/
structure LinkOwner.Quiet {Context : Type} (owner : LinkOwner Context) :
    Prop where
  writeComplete : ∀ link, owner.writeComplete link = .ok link
  highWaterMark : ∀ link size, owner.highWaterMark link size = .ok link

namespace LinkedSocket

variable {Context : Type}

/-- The bytes accepted by the kernel followed by the queued ones. -/
def outgoing (link : LinkedSocket Context) : List Byte :=
  link.kernel.accepted ++ link.outputBuffer.content

/-- No direct write met a broken connection. -/
def Healthy (link : LinkedSocket Context) : Prop :=
  ∀ event ∈ link.trace, ¬ event.IsBrokenPipe

/-- Every half-close so far happened with nothing left in the queue. -/
def HalfClosedEmpty (link : LinkedSocket Context) : Prop :=
  ∀ queued, .shutdownWrite queued ∈ link.trace → queued = []

/-- A registered link asks for write events exactly while output is queued. -/
structure Steady (link : LinkedSocket Context) : Prop where
  added : link.handler.stateInPoll = .Added
  reading : link.handler.isReading = true
  output_sound : link.outputBuffer.Sound
  writing_iff : link.isWriting = true ↔ link.outputBuffer.content ≠ []

structure Flow (before after : LinkedSocket Context) (data : List Byte) :
    Prop where
  steady : after.Steady
  inputBuffer_eq : after.inputBuffer = before.inputBuffer
  context_eq : after.context = before.context
  trace_prefix : before.trace <+: after.trace
  halfClosedEmpty : before.HalfClosedEmpty → after.HalfClosedEmpty
  outgoing_eq : after.Healthy → after.outgoing = before.outgoing ++ data

theorem Steady.refl_flow {link : LinkedSocket Context}
    (steady : link.Steady) : link.Flow link [] where
  steady := steady
  inputBuffer_eq := rfl
  context_eq := rfl
  trace_prefix := List.prefix_refl _
  halfClosedEmpty := id
  outgoing_eq := by simp

theorem Flow.healthy {before after : LinkedSocket Context}
    {data : List Byte} (flow : before.Flow after data)
    (healthy : after.Healthy) : before.Healthy := by
  intro event member
  exact healthy event (flow.trace_prefix.subset member)

theorem Flow.trans {first second third : LinkedSocket Context}
    {left right : List Byte} (before : first.Flow second left)
    (after : second.Flow third right) : first.Flow third (left ++ right) where
  steady := after.steady
  inputBuffer_eq := after.inputBuffer_eq.trans before.inputBuffer_eq
  context_eq := after.context_eq.trans before.context_eq
  trace_prefix := before.trace_prefix.trans after.trace_prefix
  halfClosedEmpty := fun empty =>
    after.halfClosedEmpty (before.halfClosedEmpty empty)
  outgoing_eq := by
    intro healthy
    rw [after.outgoing_eq healthy, before.outgoing_eq (after.healthy healthy),
      List.append_assoc]

theorem Steady.record {link : LinkedSocket Context} (steady : link.Steady)
    {event : LinkEvent}
    (empty : ∀ queued, event = .shutdownWrite queued → queued = []) :
    link.Flow (link.record event) [] where
  steady := ⟨steady.added, steady.reading, steady.output_sound,
    steady.writing_iff⟩
  inputBuffer_eq := rfl
  context_eq := rfl
  trace_prefix := List.prefix_append _ _
  halfClosedEmpty := by
    intro before queued member
    rcases List.mem_append.mp member with old | new
    · exact before queued old
    · exact empty queued (List.mem_singleton.mp new).symm
  outgoing_eq := by
    intro _
    simp [outgoing, LinkedSocket.record]

theorem kernel_write_cases (kernel : Kernel) (data : List Byte) :
    (∃ errno, (kernel.write data).1 = .failed errno ∧
      (kernel.write data).2.accepted = kernel.accepted) ∨
    (∃ count, count ≤ data.length ∧
      (kernel.write data).1 = .accepted count ∧
      (kernel.write data).2.accepted =
        kernel.accepted ++ data.take count) := by
  unfold Kernel.write
  split
  · exact .inl ⟨_, rfl, rfl⟩
  · exact .inl ⟨_, rfl, rfl⟩
  · next count writes equality =>
      exact .inr ⟨min count data.length, Nat.min_le_right _ _, rfl, rfl⟩

private theorem Steady.write {link : LinkedSocket Context}
    (steady : link.Steady) {kernel : Kernel} {event : LinkEvent}
    {taken : List Byte} (idle : taken = [] ∨ link.outputBuffer.content = [])
    (accepted : kernel.accepted = link.kernel.accepted ++ taken)
    (other : ∀ queued, event ≠ .shutdownWrite queued) :
    link.Flow (({ link with kernel } : LinkedSocket Context).record event)
      taken where
  steady := ⟨steady.added, steady.reading, steady.output_sound,
    steady.writing_iff⟩
  inputBuffer_eq := rfl
  context_eq := rfl
  trace_prefix := List.prefix_append _ _
  halfClosedEmpty := by
    intro before queued member
    rcases List.mem_append.mp member with old | new
    · exact before queued old
    · exact (other queued (List.mem_singleton.mp new).symm).elim
  outgoing_eq := by
    intro _
    rcases idle with none | empty
    · simp [outgoing, LinkedSocket.record, accepted, none]
    · simp [outgoing, LinkedSocket.record, accepted, empty]

/-- The direct write takes a front part of the data; it reports a fault only
for a broken connection. -/
theorem Steady.writeDirectly {link : LinkedSocket Context}
    (steady : link.Steady) (data : List Byte) :
    ∃ taken, data = taken ++ (link.writeDirectly data).2.remaining ∧
      link.Flow (link.writeDirectly data).1 taken ∧
      ((link.writeDirectly data).2.faultError = true →
        ¬ (link.writeDirectly data).1.Healthy) := by
  by_cases idle : !link.isWriting ∧ link.outputBuffer.readableBytes = 0
  · have empty : link.outputBuffer.content = [] := by
      apply List.eq_nil_of_length_eq_zero
      rw [steady.output_sound.length_content]
      exact idle.2
    rcases kernel_write_cases link.kernel data with
      ⟨errno, result, accepted⟩ | ⟨count, bound, result, accepted⟩
    · refine ⟨[], ?_, ?_, ?_⟩
      · simp [LinkedSocket.writeDirectly, idle, result]
      · simp only [LinkedSocket.writeDirectly, idle, result]
        exact steady.write (.inl rfl) (by simpa using accepted)
          (by intro queued; simp)
      · simp only [LinkedSocket.writeDirectly, idle, result]
        intro fault healthy
        have broken := healthy (.directWrite (.failed errno))
          (List.mem_append_right _ (List.mem_singleton.mpr rfl))
        have cause : errno = .epipe ∨ errno = .econnreset := by
          simpa using fault
        rcases cause with rfl | rfl
        · exact broken trivial
        · exact broken trivial
    · refine ⟨data.take count, ?_, ?_, ?_⟩
      · simp [LinkedSocket.writeDirectly, idle, result]
      · simp only [LinkedSocket.writeDirectly, idle, result]
        exact steady.write (.inr empty) accepted (by intro queued; simp)
      · simp [LinkedSocket.writeDirectly, idle, result]
  · refine ⟨[], ?_, ?_, ?_⟩
    · simp only [LinkedSocket.writeDirectly, if_neg idle]
      rfl
    · simp only [LinkedSocket.writeDirectly, if_neg idle]
      exact steady.refl_flow
    · simp only [LinkedSocket.writeDirectly, if_neg idle]
      intro fault
      exact (Bool.false_ne_true fault).elim

theorem updateInPoll_mod {link : LinkedSocket Context}
    (added : link.handler.stateInPoll = .Added)
    (reading : link.handler.isReading = true) :
    link.updateInPoll .ModEvent = .ok link := by
  simp only [LinkedSocket.updateInPoll,
    FdHandler.updateInPoll_mod added reading]
  rfl

private theorem flow_append {link after : LinkedSocket Context}
    {data : List Byte} (nonempty : data ≠ [])
    {outputBuffer : Buffer}
    (becomes : link.outputBuffer.Becomes outputBuffer
      (link.outputBuffer.content ++ data))
    (same : after = { link with
      outputBuffer := outputBuffer, handler := after.handler })
    (added : after.handler.stateInPoll = .Added)
    (reading : after.handler.isReading = true)
    (writing : after.handler.isWriting = true) : link.Flow after data := by
  have output : after.outputBuffer = outputBuffer := by rw [same]
  have kernel : after.kernel = link.kernel := by rw [same]
  have trace : after.trace = link.trace := by rw [same]
  have queued : after.outputBuffer.content =
      link.outputBuffer.content ++ data := by
    rw [output, becomes.content_eq]
  constructor
  · refine ⟨added, reading, output ▸ becomes.sound, ?_⟩
    simp [LinkedSocket.isWriting, writing, queued, nonempty]
  · rw [same]
  · rw [same]
  · exact trace ▸ List.prefix_refl _
  · simp only [HalfClosedEmpty, trace]
    exact id
  · intro _
    simp [outgoing, kernel, queued]

theorem Steady.queueOutput {link : LinkedSocket Context}
    (steady : link.Steady) {data : List Byte} (nonempty : data ≠ []) :
    ∃ after, link.queueOutput data = .ok after ∧ link.Flow after data := by
  obtain ⟨outputBuffer, result, becomes⟩ := steady.output_sound.append data
  by_cases writing : link.isWriting = true
  · refine ⟨{ link with outputBuffer }, ?_, ?_⟩
    · simp only [LinkedSocket.queueOutput, result, ok_bind]
      exact if_pos writing
    · exact flow_append nonempty becomes rfl steady.added
        steady.reading writing
  · let asking := ({ link with outputBuffer } :
      LinkedSocket Context).enableWriting
    have reading : asking.handler.isReading = true := by
      simpa [asking, LinkedSocket.enableWriting] using steady.reading
    refine ⟨asking, ?_, ?_⟩
    · simp only [LinkedSocket.queueOutput, result, ok_bind]
      exact (if_neg writing).trans (updateInPoll_mod steady.added reading)
    · exact flow_append nonempty becomes rfl steady.added reading
        (FdHandler.isWriting_enableWriting _)

theorem Steady.reportComplete {owner : LinkOwner Context}
    (quiet : owner.Quiet) {link : LinkedSocket Context}
    (steady : link.Steady) (completed : Bool) :
    ∃ after, link.reportComplete owner completed = .ok after ∧
      link.Flow after [] := by
  cases completed with
  | true =>
      refine ⟨link.record .writeComplete, ?_, ?_⟩
      · exact quiet.writeComplete _
      · exact steady.record (by intro queued same; cases same)
  | false => exact ⟨link, rfl, steady.refl_flow⟩

theorem Steady.reportHighWater {owner : LinkOwner Context}
    (quiet : owner.Quiet) {link : LinkedSocket Context}
    (steady : link.Steady) (size : Nat) :
    ∃ after, link.reportHighWater owner size = .ok after ∧
      link.Flow after [] := by
  simp only [LinkedSocket.reportHighWater]
  split
  · refine ⟨_, quiet.highWaterMark _ _, ?_⟩
    exact steady.record (by intro queued same; cases same)
  · exact ⟨link, rfl, steady.refl_flow⟩

/-- What a direct write leaves is queued, unless the connection is broken. -/
theorem Steady.sendRest {owner : LinkOwner Context} (quiet : owner.Quiet)
    {link : LinkedSocket Context} (steady : link.Steady) {length : Nat}
    {sending : Sending} (shorter : sending.remaining.length ≤ length) :
    ∃ after, link.sendRest owner length sending = .ok after ∧
      link.Flow after
        (if sending.faultError then [] else sending.remaining) := by
  simp only [LinkedSocket.sendRest, assertThat_bind, if_pos shorter]
  by_cases more : !sending.faultError ∧ 0 < sending.remaining.length
  · obtain ⟨warned, warnResult, warning⟩ :=
      steady.reportHighWater quiet sending.remaining.length
    have nonempty : sending.remaining ≠ [] := List.length_pos_iff.mp more.2
    obtain ⟨after, result, queued⟩ := warning.steady.queueOutput nonempty
    have sound : sending.faultError = false := by simpa using more.1
    refine ⟨after, ?_, ?_⟩
    · rw [if_pos more, warnResult, ok_bind, result]
    · rw [sound]
      exact warning.trans queued
  · refine ⟨link, if_neg more, ?_⟩
    by_cases fault : sending.faultError = true
    · rw [fault]
      exact steady.refl_flow
    · have nothing : sending.remaining = [] := by
        simpa [fault] using more
      rw [nothing, ite_self]
      exact steady.refl_flow

/-- A send in the loop thread adds its message to the outgoing bytes. -/
theorem Steady.sendInLoop {owner : LinkOwner Context} (quiet : owner.Quiet)
    {link : LinkedSocket Context} (steady : link.Steady)
    (alive : link.state ≠ .kDisconnected) (data : List Byte) :
    ∃ after, link.sendInLoop owner data = .ok after ∧
      link.Flow after data := by
  obtain ⟨taken, split, written, faulty⟩ := steady.writeDirectly data
  simp only [LinkedSocket.sendInLoop, if_neg alive]
  generalize link.writeDirectly data = outcome at split written faulty ⊢
  obtain ⟨direct, sending⟩ := outcome
  simp only at split written faulty ⊢
  obtain ⟨completed, reported, completing⟩ :=
    written.steady.reportComplete quiet sending.completed
  have shorter : sending.remaining.length ≤ data.length := by
    rw [split]
    simp
  have soFar : link.Flow completed taken := by
    simpa using written.trans completing
  obtain ⟨after, result, flow⟩ := soFar.steady.sendRest quiet shorter
  refine ⟨after, ?_, ?_⟩
  · rw [reported, ok_bind, result]
  · have total := soFar.trans flow
    by_cases fault : sending.faultError = true
    · have sick : ¬ after.Healthy := by
        intro healthy
        exact faulty fault (completing.healthy (flow.healthy healthy))
      exact ⟨total.steady, total.inputBuffer_eq, total.context_eq,
        total.trace_prefix, total.halfClosedEmpty,
        fun healthy => (sick healthy).elim⟩
    · rw [if_neg fault, ← split] at total
      exact total

/-- The bytes a `send` takes: its message if it finds the link connected. -/
def taken (link : LinkedSocket Context) (message : List Byte) : List Byte :=
  if link.state = .kConnected then message else []

theorem Steady.send {owner : LinkOwner Context} (quiet : owner.Quiet)
    {link : LinkedSocket Context} (steady : link.Steady)
    (message : List Byte) :
    ∃ after, link.send owner message = .ok after ∧
      link.Flow after (link.taken message) := by
  by_cases connected : link.state = .kConnected
  · obtain ⟨after, result, flow⟩ :=
      steady.sendInLoop quiet (by simp [connected]) message
    refine ⟨after, ?_, ?_⟩
    · rw [LinkedSocket.send, if_pos connected, result]
    · rwa [LinkedSocket.taken, if_pos connected]
  · refine ⟨link, ?_, ?_⟩
    · rw [LinkedSocket.send, if_neg connected]
    · rw [LinkedSocket.taken, if_neg connected]
      exact steady.refl_flow

theorem Steady.sendBuffer {owner : LinkOwner Context} (quiet : owner.Quiet)
    {link : LinkedSocket Context} (steady : link.Steady) (buf : Buffer) :
    ∃ after rest, link.sendBuffer owner buf = .ok (after, rest) ∧
      link.Flow after (link.taken buf.content) := by
  obtain ⟨after, sent, flow⟩ := steady.send quiet buf.content
  obtain ⟨rest, result⟩ := sendBuffer_of_send sent
  exact ⟨after, rest, result, flow⟩

theorem Steady.shutdownInLoop {link : LinkedSocket Context}
    (steady : link.Steady) : link.Flow link.shutdownInLoop [] := by
  by_cases writing : link.isWriting = true
  · rw [LinkedSocket.shutdownInLoop, if_pos writing]
    exact steady.refl_flow
  · rw [LinkedSocket.shutdownInLoop, if_neg writing]
    apply steady.record
    intro queued same
    cases same
    by_cases empty : link.outputBuffer.content = []
    · exact empty
    · exact (writing (steady.writing_iff.mpr empty)).elim

theorem Steady.setState {link : LinkedSocket Context}
    (steady : link.Steady) (state : StateE) :
    link.Flow (link.setState state) [] where
  steady := ⟨steady.added, steady.reading, steady.output_sound,
    steady.writing_iff⟩
  inputBuffer_eq := rfl
  context_eq := rfl
  trace_prefix := List.prefix_refl _
  halfClosedEmpty := id
  outgoing_eq := by simp [outgoing, LinkedSocket.setState]

theorem Steady.shutdown {link : LinkedSocket Context}
    (steady : link.Steady) : link.Flow link.shutdown [] := by
  by_cases connected : link.state = .kConnected
  · rw [LinkedSocket.shutdown, if_pos connected]
    have closing := steady.setState .kDisconnecting
    exact closing.trans closing.steady.shutdownInLoop
  · rw [LinkedSocket.shutdown, if_neg connected]
    exact steady.refl_flow

/-- Bytes that leave the queue for the kernel, seen from any handler that
still asks for write events exactly while output is queued. -/
private theorem flow_moved {link : LinkedSocket Context} {kernel : Kernel} {count : Nat}
    (accepted : kernel.accepted =
      link.kernel.accepted ++ link.outputBuffer.content.take count)
    {outputBuffer : Buffer}
    (becomes : link.outputBuffer.Becomes outputBuffer
      (link.outputBuffer.content.drop count))
    {handler : FdHandler} (added : handler.stateInPoll = .Added)
    (reading : handler.isReading = true)
    (writingIff : handler.isWriting = true ↔ outputBuffer.content ≠ []) :
    link.Flow { link.record (.queuedWrite (.accepted count)) with
      kernel, outputBuffer, handler } [] where
  steady := ⟨added, reading, becomes.sound, writingIff⟩
  inputBuffer_eq := rfl
  context_eq := rfl
  trace_prefix := List.prefix_append _ _
  halfClosedEmpty := by
    intro before queued member
    rcases List.mem_append.mp member with old | new
    · exact before queued old
    · cases List.mem_singleton.mp new
  outgoing_eq := by
    intro _
    simp [outgoing, accepted, becomes.content_eq]

/-- The write of `handleWrite` loses and repeats no byte; an emptied queue
leaves a link that is steady once it stops asking for write events. -/
theorem Steady.writeQueued {link : LinkedSocket Context}
    (steady : link.Steady) (writing : link.isWriting = true) :
    ∃ after emptied, link.writeQueued = .ok (after, emptied) ∧
      (emptied = false → link.Flow after []) ∧
      (emptied = true → link.Flow after.disableWriting []) := by
  have size := steady.output_sound.length_content
  have unmoved : ∀ (kernel : Kernel) (result : WriteResult),
      kernel.accepted = link.kernel.accepted →
      link.Flow (({ link with kernel } : LinkedSocket Context).record
        (.queuedWrite result)) [] := by
    intro kernel result same
    exact steady.write (.inl rfl) (by simpa using same) (by intro _; simp)
  generalize outcome : link.kernel.write link.outputBuffer.content = answer
  obtain ⟨answered, kernel⟩ := answer
  have answers := kernel_write_cases link.kernel link.outputBuffer.content
  rw [outcome] at answers
  rcases answers with
    ⟨errno, result, accepted⟩ | ⟨count, bound, result, accepted⟩
  · obtain rfl : answered = .failed errno := result
    refine ⟨_, false, ?_, fun _ => unmoved kernel (.failed errno) accepted,
      by simp⟩
    simp only [LinkedSocket.writeQueued, outcome]
    rfl
  · obtain rfl : answered = .accepted count := result
    by_cases positive : 0 < count
    · have fits : count ≤ link.outputBuffer.readableBytes := by omega
      obtain ⟨outputBuffer, retrieved, becomes⟩ :=
        steady.output_sound.retrieve fits
      have left : outputBuffer.readableBytes = outputBuffer.content.length :=
        becomes.sound.length_content.symm
      refine ⟨{ link.record (.queuedWrite (.accepted count)) with
        kernel, outputBuffer }, outputBuffer.readableBytes == 0, ?_, ?_, ?_⟩
      · simp only [LinkedSocket.writeQueued, outcome, if_pos positive,
          LinkedSocket.record, retrieved, ok_bind]
        rfl
      · intro someLeft
        have nonempty : outputBuffer.content ≠ [] := by
          intro none
          simp [left, none] at someLeft
        exact flow_moved accepted becomes steady.added steady.reading
          ⟨fun _ => nonempty, fun _ => writing⟩
      · intro nothingLeft
        have empty : outputBuffer.content = [] := by
          apply List.eq_nil_of_length_eq_zero
          simpa [left] using nothingLeft
        have reading : link.handler.disableWriting.isReading = true := by
          simpa using steady.reading
        exact flow_moved accepted becomes steady.added reading
          (by simp [empty])
    · obtain rfl : count = 0 := by omega
      refine ⟨_, false, ?_, fun _ => unmoved kernel (.accepted 0) ?_,
        by simp⟩
      · simp only [LinkedSocket.writeQueued, outcome, if_neg positive]
        rfl
      · rw [accepted]
        simp

/-- A write event moves bytes from the queue to the kernel, and completes a
half-close that waited for the queue to empty. -/
theorem Steady.handleWrite {owner : LinkOwner Context} (quiet : owner.Quiet)
    {link : LinkedSocket Context} (steady : link.Steady) :
    ∃ after, link.handleWrite owner = .ok after ∧ link.Flow after [] := by
  by_cases writing : link.isWriting = true
  · obtain ⟨written, emptied, result, partly, whole⟩ :=
      steady.writeQueued writing
    simp only [LinkedSocket.handleWrite, if_pos writing, result, ok_bind]
    cases emptied with
    | false => exact ⟨written, rfl, partly rfl⟩
    | true =>
        have drained := whole rfl
        have registered := updateInPoll_mod drained.steady.added
          drained.steady.reading
        have reported : written.disableWriting.Flow
            (written.disableWriting.record .writeComplete) [] :=
          drained.steady.record (by intro queued same; cases same)
        have soFar := drained.trans reported
        simp only [if_true, registered, ok_bind, quiet.writeComplete]
        split
        · exact ⟨_, rfl, soFar.trans reported.steady.shutdownInLoop⟩
        · exact ⟨_, rfl, soFar⟩
  · exact ⟨link, if_neg writing, steady.refl_flow⟩

theorem registered_steady (fd : Int) (highWaterMark : Nat)
    (kernel : Kernel) :
    (registered fd highWaterMark kernel : LinkedSocket Context).Steady where
  added := rfl
  reading := by
    have wanted : EventMask.meets kReadEvent kReadEvent = true := by decide
    exact wanted
  output_sound := Buffer.new_sound _
  writing_iff := by
    have idle : (registered fd highWaterMark kernel :
        LinkedSocket Context).isWriting = false := by
      have unwanted : EventMask.meets kReadEvent kWriteEvent = false := by
        decide
      exact unwanted
    have empty : (registered fd highWaterMark kernel :
        LinkedSocket Context).outputBuffer.content = [] :=
      Buffer.content_new _
    simp [idle, empty]

end LinkedSocket

/-- A message whose length an `int` holds, as `StringPiece` needs it. -/
structure Message where
  bytes : List Byte
  short : bytes.length < 2 ^ 31

/-- What the loop thread does to the sending side. -/
inductive SendAction where
  | send (message : Message)
  | sendBuffer (buf : Buffer)
  | shutdown
  | handleWrite

/-- A link and the messages whose send found it connected, concatenated. -/
structure SendRun (Context : Type) where
  link : LinkedSocket Context
  sent : List Byte

section Runs

variable {Context : Type}

def sendStep (owner : LinkOwner Context) (run : SendRun Context) :
    SendAction → Checked (SendRun Context)
  | .send message => do
      let link ← run.link.send owner message.bytes
      return { link, sent := run.sent ++
        if run.link.connected then message.bytes else [] }
  | .sendBuffer buf => do
      let (link, _) ← run.link.sendBuffer owner buf
      return { link, sent := run.sent ++
        if run.link.connected then buf.content else [] }
  | .shutdown => .ok { run with link := run.link.shutdown }
  | .handleWrite => do
      let link ← run.link.handleWrite owner
      return { run with link }

/-- A buffer to send is well formed and holds a message of `int` length. -/
def SendAction.Allowed : SendAction → Prop
  | .sendBuffer buf => buf.Sound ∧ buf.content.length < 2 ^ 31
  | _ => True

instance (action : SendAction) : Decidable action.Allowed := by
  cases action <;> unfold SendAction.Allowed <;> infer_instance

def sendMachine (owner : LinkOwner Context) :
    Machine (SendRun Context) SendAction Fault where
  enabled _ action := action.Allowed
  step := sendStep owner

instance (owner : LinkOwner Context) (run : SendRun Context)
    (action : SendAction) : Decidable ((sendMachine owner).enabled run action) :=
  inferInstanceAs (Decidable action.Allowed)

private theorem taken_eq (link : LinkedSocket Context)
    (message : List Byte) :
    link.taken message = if link.connected then message else [] := by
  simp [LinkedSocket.taken, LinkedSocket.connected]

theorem sendStep_flow {owner : LinkOwner Context} (quiet : owner.Quiet)
    {run : SendRun Context} (steady : run.link.Steady)
    (action : SendAction) :
    ∃ next taken, sendStep owner run action = .ok next ∧
      run.link.Flow next.link taken ∧ next.sent = run.sent ++ taken := by
  cases action with
  | send message =>
      obtain ⟨after, result, flow⟩ := steady.send quiet message.bytes
      refine ⟨{ link := after, sent := run.sent ++
        run.link.taken message.bytes }, _, ?_, flow, rfl⟩
      rw [taken_eq]
      simp only [sendStep, result]
      rfl
  | sendBuffer buf =>
      obtain ⟨after, rest, result, flow⟩ := steady.sendBuffer quiet buf
      refine ⟨{ link := after, sent := run.sent ++
        run.link.taken buf.content }, _, ?_, flow, rfl⟩
      rw [taken_eq]
      simp only [sendStep, result]
      rfl
  | shutdown =>
      exact ⟨_, [], rfl, steady.shutdown, (List.append_nil _).symm⟩
  | handleWrite =>
      obtain ⟨after, result, flow⟩ := steady.handleWrite quiet
      refine ⟨{ run with link := after }, [], ?_, flow,
        (List.append_nil _).symm⟩
      simp only [sendStep, result]
      rfl

def SendRun.start (fd : Int) (highWaterMark : Nat)
    (writes : List WriteResult) : SendRun Context :=
  { link := .registered fd highWaterMark { writes, accepted := [] }
    sent := [] }

/-- What a run keeps: one flow from the fresh link, of everything sent. -/
private theorem run_flow {owner : LinkOwner Context} (quiet : owner.Quiet)
    {fd : Int} {highWaterMark : Nat} {writes : List WriteResult}
    {actions : List SendAction} {run : SendRun Context}
    (runs : (sendMachine owner).Run (.start fd highWaterMark writes) actions
      run) :
    (SendRun.start fd highWaterMark writes).link.Flow run.link run.sent := by
  apply runs.progress_invariant
    (fun run => (SendRun.start fd highWaterMark writes).link.Flow run.link
      run.sent)
  · exact (LinkedSocket.registered_steady fd highWaterMark _).refl_flow
  · intro run action flow _
    obtain ⟨after, taken, result, step, sent⟩ :=
      sendStep_flow quiet flow.steady action
    refine ⟨after, result, ?_⟩
    rw [sent]
    exact flow.trans step

/-- In every run of sends, shutdowns and write events on a fresh link, with
every pattern of write results, no assert fails.  Unless a direct write met a
broken connection, the bytes the kernel accepted followed by the queued ones
are the messages that found the link connected, in order.  Write events are
wanted exactly while output is queued, and a half-close never cuts off output. -/
theorem sends_are_kept {owner : LinkOwner Context} (quiet : owner.Quiet)
    (fd : Int) (highWaterMark : Nat) (writes : List WriteResult)
    {actions : List SendAction} {run : SendRun Context}
    (runs : (sendMachine owner).Run (.start fd highWaterMark writes) actions
      run) :
    (run.link.Healthy →
      run.link.kernel.accepted ++ run.link.outputBuffer.content = run.sent) ∧
    (run.link.isWriting = true ↔ run.link.outputBuffer.content ≠ []) ∧
    (∀ queued, .shutdownWrite queued ∈ run.link.trace → queued = []) ∧
    (∀ action, ∃ next, sendStep owner run action = .ok next) := by
  have flow := run_flow quiet runs
  refine ⟨?_, flow.steady.writing_iff, ?_, ?_⟩
  · intro healthy
    have outgoing := flow.outgoing_eq healthy
    have fresh : (SendRun.start fd highWaterMark writes :
        SendRun Context).link.outgoing = [] := by
      simp [SendRun.start, LinkedSocket.outgoing, LinkedSocket.registered,
        LinkedSocket.new]
    rwa [fresh, List.nil_append] at outgoing
  · apply flow.halfClosedEmpty
    intro queued member
    cases member
  · intro action
    obtain ⟨next, _, result, _⟩ := sendStep_flow quiet flow.steady action
    exact ⟨next, result⟩

/-- An owner without callbacks. -/
def silentOwner : LinkOwner Context where
  delConnection := .ok
  rcvMessage link _ := .ok link
  writeComplete := .ok
  highWaterMark link _ := .ok link

theorem silentOwner_quiet : (silentOwner : LinkOwner Context).Quiet :=
  ⟨fun _ => rfl, fun _ _ => rfl⟩

/-- A message is cut by a partial write, the next one queues behind it, the
link is shut down, and two write events bring the rest out. -/
theorem sends_are_kept_example :
    ∃ run : SendRun Unit, (sendMachine silentOwner).Run
        (.start 5 64 [.accepted 1, .failed .ewouldblock, .accepted 9])
        [.send ⟨[1, 2, 3], by decide⟩, .send ⟨[4], by decide⟩, .shutdown,
          .send ⟨[5], by decide⟩, .handleWrite, .handleWrite] run ∧
      run.link.kernel.accepted ++ run.link.outputBuffer.content =
        [1, 2, 3, 4] ∧
      LinkEvent.shutdownWrite [] ∈ run.link.trace := by
  have found : ((sendMachine silentOwner).execute
      (.start 5 64 [.accepted 1, .failed .ewouldblock, .accepted 9])
      [.send ⟨[1, 2, 3], by decide⟩, .send ⟨[4], by decide⟩, .shutdown,
        .send ⟨[5], by decide⟩, .handleWrite, .handleWrite]).any
      (fun run : SendRun Unit => run.sent = [1, 2, 3, 4] ∧
        run.link.trace = [.directWrite (.accepted 1),
          .queuedWrite (.failed .ewouldblock), .queuedWrite (.accepted 3),
          .writeComplete, .shutdownWrite []]) = true := by
    decide +kernel
  obtain ⟨run, runs, accepted⟩ := Machine.run_of_execute found
  obtain ⟨sent, trace⟩ := of_decide_eq_true accepted
  obtain ⟨kept, _⟩ := sends_are_kept silentOwner_quiet _ _ _ runs
  have healthy : run.link.Healthy := by
    intro event member broken
    rw [trace] at member
    simp only [List.mem_cons, List.not_mem_nil, or_false] at member
    rcases member with rfl | rfl | rfl | rfl | rfl <;> exact broken
  refine ⟨run, runs, (kept healthy).trans sent, ?_⟩
  rw [trace]
  simp

end Runs

end Muduo
