import Muduo.Net.LinkCallbacks

/-!
# What a link takes

A message that finds the link connected goes out as a whole, to the kernel or to
the queue, unless its direct write meets a broken connection; then none of it
does.  `Takes` says so whatever the kernel answered before, and that nothing on
the sending side but `shutdown` moves the state of the link.
-/

namespace Muduo

namespace LinkedSocket

variable {Context : Type} {owner : LinkOwner Context}
variable {link after : LinkedSocket Context} {data : List Byte}

/-- A steady link in the same state with `data` behind the outgoing bytes. -/
structure Takes (before after : LinkedSocket Context) (data : List Byte) :
    Prop where
  kept : before.Kept after
  state_eq : after.state = before.state
  outgoing_eq : after.outgoing = before.outgoing ++ data

/-- The link is connected and a direct write of the data would not fail on a
broken connection. -/
def accepts (link : LinkedSocket Context) (data : List Byte) : Bool :=
  link.connected && !(link.writeDirectly data).2.faultError

theorem Steady.refl_takes (steady : link.Steady) : link.Takes link [] :=
  ⟨steady.refl_kept, rfl, (List.append_nil _).symm⟩

theorem Takes.trans {first second third : LinkedSocket Context}
    {left right : List Byte} (before : first.Takes second left)
    (after : second.Takes third right) :
    first.Takes third (left ++ right) where
  kept := before.kept.trans after.kept
  state_eq := after.state_eq.trans before.state_eq
  outgoing_eq := by
    rw [after.outgoing_eq, before.outgoing_eq, List.append_assoc]

theorem Steady.record_takes (steady : link.Steady) (event : LinkEvent) :
    link.Takes (link.record event) [] :=
  ⟨steady.record_kept event, rfl, (List.append_nil _).symm⟩

/-- A direct write that fails on a broken connection has taken nothing. -/
theorem Steady.writeDirectly_takes (steady : link.Steady)
    (data : List Byte) :
    ∃ taken, data = taken ++ (link.writeDirectly data).2.remaining ∧
      link.Takes (link.writeDirectly data).1 taken ∧
      ((link.writeDirectly data).2.faultError = true → taken = []) := by
  by_cases idle : !link.isWriting ∧ link.outputBuffer.readableBytes = 0
  · have empty : link.outputBuffer.content = [] := by
      apply List.eq_nil_of_length_eq_zero
      rw [steady.output_sound.length_content]
      exact idle.2
    have kept : ∀ kernel event, link.Kept
        (({ link with kernel } : LinkedSocket Context).record event) := by
      intro kernel event
      exact ⟨⟨steady.added, steady.reading, steady.output_sound,
        steady.writing_iff⟩, rfl, rfl⟩
    rcases kernel_write_cases link.kernel data with
      ⟨errno, result, accepted⟩ | ⟨count, bound, result, accepted⟩
    · refine ⟨[], ?_, ?_, fun _ => rfl⟩
      · simp [LinkedSocket.writeDirectly, idle, result]
      · simp only [LinkedSocket.writeDirectly, idle, result]
        refine ⟨kept _ _, rfl, ?_⟩
        simp [outgoing, LinkedSocket.record, accepted]
    · refine ⟨data.take count, ?_, ?_, ?_⟩
      · simp [LinkedSocket.writeDirectly, idle, result]
      · simp only [LinkedSocket.writeDirectly, idle, result]
        refine ⟨kept _ _, rfl, ?_⟩
        simp [outgoing, LinkedSocket.record, accepted, empty]
      · simp [LinkedSocket.writeDirectly, idle, result]
  · simp only [LinkedSocket.writeDirectly, if_neg idle]
    exact ⟨[], rfl, steady.refl_takes, fun _ => rfl⟩

theorem Steady.reportComplete_takes (quiet : owner.Quiet)
    (steady : link.Steady) (completed : Bool) :
    ∃ after, link.reportComplete owner completed = .ok after ∧
      link.Takes after [] := by
  cases completed with
  | true => exact ⟨_, quiet.writeComplete _, steady.record_takes _⟩
  | false => exact ⟨link, rfl, steady.refl_takes⟩

theorem Steady.reportHighWater_takes (quiet : owner.Quiet)
    (steady : link.Steady) (size : Nat) :
    ∃ after, link.reportHighWater owner size = .ok after ∧
      link.Takes after [] := by
  simp only [LinkedSocket.reportHighWater]
  split
  · exact ⟨_, quiet.highWaterMark _ _, steady.record_takes _⟩
  · exact ⟨link, rfl, steady.refl_takes⟩

theorem Steady.queueOutput_takes (steady : link.Steady)
    (nonempty : data ≠ []) :
    ∃ after, link.queueOutput data = .ok after ∧ link.Takes after data := by
  obtain ⟨after, result, flow⟩ := steady.queueOutput nonempty
  refine ⟨after, result, flow.kept, ?_, ?_⟩
  · obtain ⟨buffer, _, asked⟩ := bind_eq_ok result
    dsimp only at asked
    split at asked
    · cases asked
      rfl
    · obtain ⟨handler, _, asked⟩ := bind_eq_ok asked
      cases asked
      rfl
  · obtain ⟨buffer, appended, becomes⟩ := steady.output_sound.append data
    rw [LinkedSocket.queueOutput, appended, ok_bind] at result
    have queued : after.outgoing =
        link.kernel.accepted ++ buffer.content := by
      dsimp only at result
      split at result
      · cases result
        rfl
      · obtain ⟨handler, _, result⟩ := bind_eq_ok result
        cases result
        rfl
    rw [queued, becomes.content_eq, outgoing, List.append_assoc]

theorem Steady.sendRest_takes (quiet : owner.Quiet) (steady : link.Steady)
    {length : Nat} {sending : Sending}
    (shorter : sending.remaining.length ≤ length) :
    ∃ after, link.sendRest owner length sending = .ok after ∧
      link.Takes after
        (if sending.faultError then [] else sending.remaining) := by
  simp only [LinkedSocket.sendRest, assertThat_bind, if_pos shorter]
  by_cases more : !sending.faultError ∧ 0 < sending.remaining.length
  · obtain ⟨warned, warnResult, warning⟩ :=
      steady.reportHighWater_takes quiet sending.remaining.length
    have nonempty : sending.remaining ≠ [] := List.length_pos_iff.mp more.2
    obtain ⟨after, result, queued⟩ :=
      warning.kept.steady.queueOutput_takes nonempty
    have sound : sending.faultError = false := by simpa using more.1
    refine ⟨after, ?_, ?_⟩
    · rw [if_pos more, warnResult, ok_bind, result]
    · rw [sound]
      exact warning.trans queued
  · refine ⟨link, if_neg more, ?_⟩
    have nothing :
        (if sending.faultError then [] else sending.remaining) = [] := by
      cases fault : sending.faultError with
      | true => rfl
      | false => simpa [fault] using more
    rw [nothing]
    exact steady.refl_takes

theorem Steady.sendInLoop_takes (quiet : owner.Quiet) (steady : link.Steady)
    (connected : link.state = .kConnected) (data : List Byte) :
    ∃ after, link.sendInLoop owner data = .ok after ∧
      link.Takes after (if link.accepts data then data else []) := by
  have open_ : link.state ≠ .kDisconnected := by
    rw [connected]
    decide
  have accepting : link.accepts data =
      !(link.writeDirectly data).2.faultError := by
    simp [accepts, LinkedSocket.connected, connected]
  obtain ⟨taken, split, written, fault⟩ := steady.writeDirectly_takes data
  simp only [LinkedSocket.sendInLoop, if_neg open_, accepting]
  generalize link.writeDirectly data = outcome at split written fault ⊢
  obtain ⟨direct, sending⟩ := outcome
  simp only at split written fault ⊢
  obtain ⟨completed, reported, completing⟩ :=
    written.kept.steady.reportComplete_takes quiet sending.completed
  have shorter : sending.remaining.length ≤ data.length := by
    rw [split]
    simp
  obtain ⟨after, result, resting⟩ :=
    completing.kept.steady.sendRest_takes quiet shorter
  refine ⟨after, ?_, ?_⟩
  · rw [reported, ok_bind, result]
  · have whole := (written.trans completing).trans resting
    rw [List.append_nil] at whole
    cases broken : sending.faultError with
    | true =>
        rw [broken, fault broken] at whole
        exact whole
    | false =>
        rw [broken] at whole
        have same : taken ++ sending.remaining = data := split.symm
        simpa [same] using whole

theorem accepts_of_not_connected (other : link.state ≠ .kConnected)
    (data : List Byte) : link.accepts data = false := by
  simp [accepts, LinkedSocket.connected, other]

theorem Steady.send_takes (quiet : owner.Quiet) (steady : link.Steady)
    (message : List Byte) :
    ∃ after, link.send owner message = .ok after ∧
      link.Takes after (if link.accepts message then message else []) := by
  by_cases connected : link.state = .kConnected
  · rw [LinkedSocket.send, if_pos connected]
    exact steady.sendInLoop_takes quiet connected message
  · rw [LinkedSocket.send, if_neg connected,
      accepts_of_not_connected connected]
    exact ⟨link, rfl, steady.refl_takes⟩

theorem Steady.sendBuffer_takes (quiet : owner.Quiet)
    (steady : link.Steady) (buf : Buffer) :
    ∃ after rest, link.sendBuffer owner buf = .ok (after, rest) ∧
      link.Takes after
        (if link.accepts buf.content then buf.content else []) := by
  obtain ⟨after, sent, takes⟩ := steady.send_takes quiet buf.content
  obtain ⟨rest, result⟩ := sendBuffer_of_send sent
  exact ⟨after, rest, result, takes⟩

theorem Steady.writeQueued_outgoing (steady : link.Steady) {emptied : Bool}
    (written : link.writeQueued = .ok (after, emptied)) :
    after.state = link.state ∧ after.outgoing = link.outgoing := by
  have size := steady.output_sound.length_content
  have answers := kernel_write_cases link.kernel link.outputBuffer.content
  rw [LinkedSocket.writeQueued] at written
  generalize link.kernel.write link.outputBuffer.content = answer
    at answers written
  obtain ⟨answered, kernel⟩ := answer
  rcases answers with
    ⟨errno, result, accepted⟩ | ⟨count, bound, result, accepted⟩
  · obtain rfl : answered = .failed errno := result
    cases written
    exact ⟨rfl, congrArg (· ++ link.outputBuffer.content) accepted⟩
  · obtain rfl : answered = .accepted count := result
    dsimp only at accepted written
    split at written
    · have fits : count ≤ link.outputBuffer.readableBytes := by omega
      obtain ⟨outputBuffer, retrieved, becomes⟩ :=
        steady.output_sound.retrieve fits
      simp only [LinkedSocket.record, retrieved, ok_bind] at written
      cases written
      refine ⟨rfl, ?_⟩
      simp only [outgoing, accepted, becomes.content_eq, List.append_assoc,
        List.take_append_drop]
    · next none =>
        obtain rfl : count = 0 := by omega
        cases written
        refine ⟨rfl, ?_⟩
        simp [outgoing, LinkedSocket.record, accepted]

theorem Steady.handleWrite_takes (quiet : owner.Quiet)
    (steady : link.Steady) :
    ∃ after, link.handleWrite owner = .ok after ∧ link.Takes after [] := by
  obtain ⟨after, result, flow⟩ := steady.handleWrite quiet
  suffices moved : after.state = link.state ∧
      after.outgoing = link.outgoing by
    refine ⟨after, result, flow.kept, moved.1, ?_⟩
    rw [moved.2, List.append_nil]
  by_cases writing : link.isWriting = true
  · obtain ⟨written, emptied, writtenResult, _, whole⟩ :=
      steady.writeQueued writing
    obtain ⟨state, outgoing⟩ := steady.writeQueued_outgoing writtenResult
    simp only [LinkedSocket.handleWrite, if_pos writing, writtenResult,
      ok_bind] at result
    cases emptied with
    | false =>
        cases result
        exact ⟨state, outgoing⟩
    | true =>
        have drained := whole rfl
        have registered := updateInPoll_mod drained.steady.added
          drained.steady.reading
        simp only [if_true, registered, ok_bind, quiet.writeComplete]
          at result
        split at result
        · cases result
          rw [LinkedSocket.shutdownInLoop]
          split
          · exact ⟨state, outgoing⟩
          · exact ⟨state, outgoing⟩
        · cases result
          exact ⟨state, outgoing⟩
  · rw [LinkedSocket.handleWrite, if_neg writing] at result
    cases result
    exact ⟨rfl, rfl⟩

theorem outgoing_shutdown (link : LinkedSocket Context) :
    link.shutdown.outgoing = link.outgoing := by
  rw [LinkedSocket.shutdown]
  split
  · rw [LinkedSocket.shutdownInLoop]
    split
    · rfl
    · rfl
  · rfl

theorem shutdown_not_connected (link : LinkedSocket Context) :
    link.shutdown.state ≠ .kConnected := by
  rw [LinkedSocket.shutdown]
  split
  · rw [LinkedSocket.shutdownInLoop]
    split
    · simp [LinkedSocket.setState]
    · simp [LinkedSocket.setState, LinkedSocket.record]
  · assumption

end LinkedSocket

end Muduo
