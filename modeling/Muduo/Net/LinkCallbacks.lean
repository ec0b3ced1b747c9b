import Muduo.Net.SendRuns

/-!
# Callbacks that call back

The write callbacks of a user may send on the link that they are called for,
shut it down or close it.  Whatever they do, the functions of the sending side
complete if the callbacks do, and leave a steady link with the input and the
context that it had.
-/

namespace Muduo

namespace LinkedSocket

variable {Context : Type}

/-- A steady link with the input and the context of an earlier one. -/
structure Kept (before after : LinkedSocket Context) : Prop where
  steady : after.Steady
  inputBuffer_eq : after.inputBuffer = before.inputBuffer
  context_eq : after.context = before.context

theorem Steady.refl_kept {link : LinkedSocket Context}
    (steady : link.Steady) : link.Kept link :=
  ⟨steady, rfl, rfl⟩

theorem Kept.trans {first second third : LinkedSocket Context}
    (before : first.Kept second) (after : second.Kept third) :
    first.Kept third where
  steady := after.steady
  inputBuffer_eq := after.inputBuffer_eq.trans before.inputBuffer_eq
  context_eq := after.context_eq.trans before.context_eq

theorem Flow.kept {before after : LinkedSocket Context} {data : List Byte}
    (flow : before.Flow after data) : before.Kept after :=
  ⟨flow.steady, flow.inputBuffer_eq, flow.context_eq⟩

end LinkedSocket

/-- Write callbacks that complete on a steady link and keep it. -/
structure LinkOwner.Calm {Context : Type} (owner : LinkOwner Context) :
    Prop where
  writeComplete : ∀ link : LinkedSocket Context, link.Steady →
    ∃ after, owner.writeComplete link = .ok after ∧ link.Kept after
  highWaterMark : ∀ (link : LinkedSocket Context) (size : Nat), link.Steady →
    ∃ after, owner.highWaterMark link size = .ok after ∧ link.Kept after

theorem LinkOwner.Quiet.calm {Context : Type} {owner : LinkOwner Context}
    (quiet : owner.Quiet) : owner.Calm where
  writeComplete := by
    intro link steady
    exact ⟨link, quiet.writeComplete link, steady.refl_kept⟩
  highWaterMark := by
    intro link size steady
    exact ⟨link, quiet.highWaterMark link size, steady.refl_kept⟩

namespace LinkedSocket

section Calm

variable {Context : Type} {owner : LinkOwner Context}
variable {link : LinkedSocket Context}

theorem Steady.record_kept (steady : link.Steady) (event : LinkEvent) :
    link.Kept (link.record event) where
  steady := ⟨steady.added, steady.reading, steady.output_sound,
    steady.writing_iff⟩
  inputBuffer_eq := rfl
  context_eq := rfl

theorem Steady.reportComplete_kept (calm : owner.Calm)
    (steady : link.Steady) (completed : Bool) :
    ∃ after, link.reportComplete owner completed = .ok after ∧
      link.Kept after := by
  cases completed with
  | true =>
      have recorded := steady.record_kept .writeComplete
      obtain ⟨after, result, kept⟩ := calm.writeComplete _ recorded.steady
      exact ⟨after, result, recorded.trans kept⟩
  | false => exact ⟨link, rfl, steady.refl_kept⟩

theorem Steady.reportHighWater_kept (calm : owner.Calm)
    (steady : link.Steady) (size : Nat) :
    ∃ after, link.reportHighWater owner size = .ok after ∧
      link.Kept after := by
  simp only [LinkedSocket.reportHighWater]
  split
  · have recorded := steady.record_kept
      (.highWaterMark (link.outputBuffer.readableBytes + size))
    obtain ⟨after, result, kept⟩ := calm.highWaterMark _
      (link.outputBuffer.readableBytes + size) recorded.steady
    exact ⟨after, result, recorded.trans kept⟩
  · exact ⟨link, rfl, steady.refl_kept⟩

theorem Steady.sendRest_kept (calm : owner.Calm) (steady : link.Steady)
    {length : Nat} {sending : Sending}
    (shorter : sending.remaining.length ≤ length) :
    ∃ after, link.sendRest owner length sending = .ok after ∧
      link.Kept after := by
  simp only [LinkedSocket.sendRest, assertThat_bind, if_pos shorter]
  by_cases more : !sending.faultError ∧ 0 < sending.remaining.length
  · obtain ⟨warned, warnResult, warning⟩ :=
      steady.reportHighWater_kept calm sending.remaining.length
    have nonempty : sending.remaining ≠ [] := List.length_pos_iff.mp more.2
    obtain ⟨after, result, queued⟩ := warning.steady.queueOutput nonempty
    refine ⟨after, ?_, warning.trans queued.kept⟩
    rw [if_pos more, warnResult, ok_bind, result]
  · exact ⟨link, if_neg more, steady.refl_kept⟩

theorem Steady.sendInLoop_kept (calm : owner.Calm) (steady : link.Steady)
    (data : List Byte) :
    ∃ after, link.sendInLoop owner data = .ok after ∧ link.Kept after := by
  by_cases gone : link.state = .kDisconnected
  · refine ⟨link, ?_, steady.refl_kept⟩
    rw [LinkedSocket.sendInLoop, if_pos gone]
    rfl
  · obtain ⟨taken, split, written, _⟩ := steady.writeDirectly data
    simp only [LinkedSocket.sendInLoop, if_neg gone]
    generalize link.writeDirectly data = outcome at split written ⊢
    obtain ⟨direct, sending⟩ := outcome
    simp only at split written ⊢
    obtain ⟨completed, reported, completing⟩ :=
      written.steady.reportComplete_kept calm sending.completed
    have shorter : sending.remaining.length ≤ data.length := by
      rw [split]
      simp
    obtain ⟨after, result, resting⟩ :=
      completing.steady.sendRest_kept calm shorter
    refine ⟨after, ?_, (written.kept.trans completing).trans resting⟩
    rw [reported, ok_bind, result]

theorem Steady.send_kept (calm : owner.Calm) (steady : link.Steady)
    (message : List Byte) :
    ∃ after, link.send owner message = .ok after ∧ link.Kept after := by
  by_cases connected : link.state = .kConnected
  · rw [LinkedSocket.send, if_pos connected]
    exact steady.sendInLoop_kept calm message
  · refine ⟨link, ?_, steady.refl_kept⟩
    rw [LinkedSocket.send, if_neg connected]

theorem Steady.sendBuffer_kept (calm : owner.Calm) (steady : link.Steady)
    (buf : Buffer) :
    ∃ after rest, link.sendBuffer owner buf = .ok (after, rest) ∧
      link.Kept after := by
  obtain ⟨after, sent, kept⟩ := steady.send_kept calm buf.content
  obtain ⟨rest, result⟩ := sendBuffer_of_send sent
  exact ⟨after, rest, result, kept⟩

/-- Callbacks may send and shut down, to any depth of callbacks that this
leads to: one more level of such callbacks is calm again. -/
theorem calm_of_sends (calm : owner.Calm)
    (messages : LinkedSocket Context → List Byte) :
    LinkOwner.Calm { owner with
      writeComplete := fun link => do
        let link ← link.send owner (messages link)
        return link.shutdown
      highWaterMark := fun link _ => link.send owner (messages link) } where
  writeComplete := by
    intro link steady
    obtain ⟨sent, result, kept⟩ := steady.send_kept calm (messages link)
    refine ⟨sent.shutdown, ?_, kept.trans kept.steady.shutdown.kept⟩
    simp only [result, ok_bind]
    rfl
  highWaterMark := by
    intro link size steady
    exact steady.send_kept calm (messages link)

end Calm

end LinkedSocket

end Muduo
