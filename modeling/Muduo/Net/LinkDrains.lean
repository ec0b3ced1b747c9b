import Muduo.Net.LinkTakes

/-!
# A link that is shut down drains

The half-close that `shutdown` asks for is made once: at once if nothing is
queued, otherwise by the write event that empties the queue.  As long as the
kernel takes something of each write, that event comes.
-/

namespace Muduo

open Library

/-- The call of `sockets::shutdownWrite`. -/
def LinkEvent.halfCloses : LinkEvent → Bool
  | .shutdownWrite _ => true
  | .directWrite _ | .queuedWrite _ | .writeComplete | .highWaterMark _ => false

/-- The kernel takes something of each of the next writes. -/
def Kernel.Willing (kernel : Kernel) (calls : Nat) : Prop :=
  ∀ index < calls, ∃ count, 0 < count ∧
    kernel.writes[index]? = some (.accepted count)

namespace LinkedSocket

variable {Context : Type} {owner : LinkOwner Context}
variable {link after : LinkedSocket Context} {data : List Byte}

/-- How often the link was half-closed. -/
def halfCloses (link : LinkedSocket Context) : Nat :=
  link.trace.countP LinkEvent.halfCloses

theorem halfCloses_record (link : LinkedSocket Context) (event : LinkEvent) :
    (link.record event).halfCloses =
      link.halfCloses + if event.halfCloses then 1 else 0 := by
  simp [halfCloses, record, List.countP_append, List.countP_singleton]

theorem halfCloses_writeDirectly (link : LinkedSocket Context)
    (data : List Byte) :
    (link.writeDirectly data).1.halfCloses = link.halfCloses := by
  rw [writeDirectly]
  split
  · generalize link.kernel.write data = answer
    obtain ⟨result, kernel⟩ := answer
    cases result with
    | accepted count => exact halfCloses_record _ _
    | failed errno => exact halfCloses_record _ _
  · rfl

theorem halfCloses_reportComplete (quiet : owner.Quiet) {completed : Bool}
    (reported : link.reportComplete owner completed = .ok after) :
    after.halfCloses = link.halfCloses := by
  cases completed with
  | true =>
      obtain rfl := Except.ok.inj
        ((quiet.writeComplete _).symm.trans reported)
      exact halfCloses_record _ _
  | false =>
      obtain rfl := Except.ok.inj reported
      rfl

theorem halfCloses_reportHighWater (quiet : owner.Quiet) {size : Nat}
    (reported : link.reportHighWater owner size = .ok after) :
    after.halfCloses = link.halfCloses := by
  simp only [reportHighWater] at reported
  split at reported
  · obtain rfl := Except.ok.inj
      ((quiet.highWaterMark _ _).symm.trans reported)
    exact halfCloses_record _ _
  · obtain rfl := Except.ok.inj reported
    rfl

theorem trace_queueOutput (queued : link.queueOutput data = .ok after) :
    after.trace = link.trace := by
  obtain ⟨buffer, _, asked⟩ := bind_eq_ok queued
  dsimp only at asked
  split at asked
  · obtain rfl := Except.ok.inj asked
    rfl
  · obtain ⟨handler, _, last⟩ := bind_eq_ok asked
    obtain rfl := Except.ok.inj last
    rfl

theorem halfCloses_sendInLoop (quiet : owner.Quiet)
    (sent : link.sendInLoop owner data = .ok after) :
    after.halfCloses = link.halfCloses := by
  rw [sendInLoop] at sent
  split at sent
  · obtain rfl := Except.ok.inj sent
    rfl
  · have direct := halfCloses_writeDirectly link data
    generalize link.writeDirectly data = outcome at sent direct
    obtain ⟨written, sending⟩ := outcome
    obtain ⟨completed, reported, rest⟩ := bind_eq_ok sent
    have completing := halfCloses_reportComplete quiet reported
    obtain ⟨_, _, resting⟩ := bind_eq_ok rest
    split at resting
    · obtain ⟨warned, warning, queued⟩ := bind_eq_ok resting
      have same : after.halfCloses = warned.halfCloses :=
        congrArg (List.countP LinkEvent.halfCloses) (trace_queueOutput queued)
      rw [same, halfCloses_reportHighWater quiet warning, completing, direct]
    · obtain rfl := Except.ok.inj resting
      rw [completing, direct]

theorem halfCloses_send (quiet : owner.Quiet)
    (sent : link.send owner data = .ok after) :
    after.halfCloses = link.halfCloses := by
  rw [send] at sent
  split at sent
  · exact halfCloses_sendInLoop quiet sent
  · obtain rfl := Except.ok.inj sent
    rfl

/-- A write event that has emptied the queue. -/
def finished (link : LinkedSocket Context) : LinkedSocket Context :=
  let reported := link.disableWriting.record .writeComplete
  if reported.state = .kDisconnecting then reported.shutdownInLoop
  else reported

theorem Steady.handleWrite_eq (quiet : owner.Quiet) (steady : link.Steady)
    (writing : link.isWriting = true) {written : LinkedSocket Context}
    {emptied : Bool} (result : link.writeQueued = .ok (written, emptied)) :
    link.handleWrite owner =
      .ok (if emptied then written.finished else written) := by
  obtain ⟨other, flag, again, _, whole⟩ := steady.writeQueued writing
  obtain ⟨rfl, rfl⟩ :=
    Prod.mk.inj (Except.ok.inj (again.symm.trans result))
  simp only [LinkedSocket.handleWrite, if_pos writing, result, ok_bind]
  cases flag with
  | false => rfl
  | true =>
      have drained := (whole rfl).steady
      have registered := updateInPoll_mod drained.added drained.reading
      simp only [if_true, registered, ok_bind, quiet.writeComplete, finished]
      split
      · rfl
      · rfl

theorem writeQueued_kept {emptied : Bool}
    (written : link.writeQueued = .ok (after, emptied)) :
    after.handler = link.handler ∧ after.state = link.state ∧
      after.halfCloses = link.halfCloses := by
  rw [writeQueued] at written
  generalize link.kernel.write link.outputBuffer.content = answer at written
  obtain ⟨result, kernel⟩ := answer
  have same : ({ link with kernel }.record (.queuedWrite result)).halfCloses =
      link.halfCloses := halfCloses_record _ _
  cases result with
  | failed errno =>
      cases written
      exact ⟨rfl, rfl, same⟩
  | accepted count =>
      dsimp only at written
      split at written
      · obtain ⟨buffer, _, last⟩ := bind_eq_ok written
        cases last
        exact ⟨rfl, rfl, same⟩
      · cases written
        exact ⟨rfl, rfl, same⟩

/-- The half-close is made exactly when the link is to be closed and asks for no
write event. -/
structure Closing (link : LinkedSocket Context) : Prop where
  steady : link.Steady
  halfCloses_eq : link.halfCloses =
    if link.state = .kDisconnecting ∧ link.isWriting = false then 1 else 0

theorem Closing.none (closing : link.Closing)
    (other : ¬ (link.state = .kDisconnecting ∧ link.isWriting = false)) :
    link.halfCloses = 0 := by
  rw [closing.halfCloses_eq, if_neg other]

theorem Closing.send (closing : link.Closing) (quiet : owner.Quiet)
    (sent : link.send owner data = .ok after) : after.Closing := by
  obtain ⟨other, result, takes⟩ := closing.steady.send_takes quiet data
  obtain rfl := Except.ok.inj (result.symm.trans sent)
  refine ⟨takes.kept.steady, ?_⟩
  by_cases connected : link.state = .kConnected
  · have open_ : ¬ (other.state = .kDisconnecting ∧
        other.isWriting = false) := by
      rw [takes.state_eq, connected]
      simp
    rw [if_neg open_, halfCloses_send quiet sent]
    apply closing.none
    simp [connected]
  · rw [LinkedSocket.send, if_neg connected] at sent
    obtain rfl := Except.ok.inj sent
    exact closing.halfCloses_eq

theorem Closing.shutdown (closing : link.Closing) :
    link.shutdown.Closing := by
  refine ⟨closing.steady.shutdown.steady, ?_⟩
  by_cases connected : link.state = .kConnected
  · have none : link.halfCloses = 0 := closing.none (by simp [connected])
    rw [LinkedSocket.shutdown, if_pos connected, shutdownInLoop]
    split
    next writing =>
      have waits : (link.setState .kDisconnecting).isWriting ≠ false := by
        simpa using writing
      rw [if_neg (fun both => waits both.2)]
      exact none
    next idle =>
      have unasked : (link.setState .kDisconnecting).isWriting = false := by
        simpa using idle
      rw [halfCloses_record]
      have before : (link.setState .kDisconnecting).halfCloses = 0 := none
      rw [before]
      exact (if_pos ⟨rfl, unasked⟩).symm
  · rw [LinkedSocket.shutdown, if_neg connected]
    exact closing.halfCloses_eq

/-- The write event that empties the queue makes up for the half-close. -/
theorem Closing.finished (none : link.halfCloses = 0) :
    link.finished.halfCloses =
      if link.finished.state = .kDisconnecting ∧
        link.finished.isWriting = false then 1 else 0 := by
  let reported := link.disableWriting.record .writeComplete
  have idle : reported.isWriting = false := FdHandler.isWriting_disableWriting _
  have unclosed : reported.halfCloses = 0 :=
    (halfCloses_record _ _).trans none
  by_cases closes : reported.state = .kDisconnecting
  · have stops : reported.shutdownInLoop =
        reported.record (.shutdownWrite reported.outputBuffer.content) :=
      if_neg (by simp [idle])
    have same : link.finished = reported.shutdownInLoop := if_pos closes
    rw [same, stops, halfCloses_record, unclosed]
    exact (if_pos ⟨closes, idle⟩).symm
  · have same : link.finished = reported := if_neg closes
    rw [same, if_neg (fun both => closes both.1), unclosed]

theorem Closing.handleWrite (closing : link.Closing) (quiet : owner.Quiet)
    (handled : link.handleWrite owner = .ok after) : after.Closing := by
  obtain ⟨other, result, takes⟩ := closing.steady.handleWrite_takes quiet
  obtain rfl := Except.ok.inj (result.symm.trans handled)
  refine ⟨takes.kept.steady, ?_⟩
  by_cases writing : link.isWriting = true
  · have none : link.halfCloses = 0 := by
      apply closing.none
      simp [writing]
    obtain ⟨written, emptied, queued, _, _⟩ :=
      closing.steady.writeQueued writing
    obtain ⟨handler, state, same⟩ := writeQueued_kept queued
    have equal := closing.steady.handleWrite_eq quiet writing queued
    obtain rfl := Except.ok.inj (handled.symm.trans equal)
    cases emptied with
    | true => exact Closing.finished (same.trans none)
    | false =>
        have asks : written.isWriting ≠ false := by
          rw [isWriting, handler]
          simpa [isWriting] using writing
        have left : written.halfCloses = 0 := same.trans none
        simp [left, asks]
  · rw [LinkedSocket.handleWrite, if_neg writing] at handled
    obtain rfl := Except.ok.inj handled
    exact closing.halfCloses_eq

theorem Steady.writeQueued_accepted (steady : link.Steady)
    (writing : link.isWriting = true) {count : Nat} (positive : 0 < count)
    {writes : List WriteResult}
    (willing : link.kernel.writes = .accepted count :: writes) :
    ∃ written emptied, link.writeQueued = .ok (written, emptied) ∧
      written.kernel.writes = writes ∧
      written.outputBuffer.content.length <
        link.outputBuffer.content.length := by
  have size := steady.output_sound.length_content
  have some : 0 < link.outputBuffer.content.length :=
    List.length_pos_iff.mpr (steady.writing_iff.mp writing)
  let nwrote := min count link.outputBuffer.content.length
  have fits : nwrote ≤ link.outputBuffer.readableBytes := by
    rw [← size]
    exact Nat.min_le_right _ _
  have progress : 0 < nwrote := Nat.lt_min.mpr ⟨positive, some⟩
  obtain ⟨outputBuffer, retrieved, becomes⟩ :=
    steady.output_sound.retrieve fits
  have answer : link.kernel.write link.outputBuffer.content =
      (.accepted nwrote, { writes, accepted := link.kernel.accepted ++
        link.outputBuffer.content.take nwrote }) := by
    simp only [Kernel.write, willing, nwrote]
  refine ⟨{ link.record (.queuedWrite (.accepted nwrote)) with
    kernel := ⟨writes, link.kernel.accepted ++
      link.outputBuffer.content.take nwrote⟩
    outputBuffer }, outputBuffer.readableBytes == 0, ?_, rfl, ?_⟩
  · simp only [LinkedSocket.writeQueued, answer, if_pos progress,
      LinkedSocket.record, retrieved, ok_bind]
    rfl
  · rw [becomes.content_eq, List.length_drop]
    omega

theorem finished_kept (link : LinkedSocket Context) :
    link.finished.kernel = link.kernel ∧
      link.finished.outputBuffer = link.outputBuffer := by
  rw [finished]
  split
  · rw [shutdownInLoop]
    split
    · exact ⟨rfl, rfl⟩
    · exact ⟨rfl, rfl⟩
  · exact ⟨rfl, rfl⟩

/-- A number of write events is enough to empty the queue. -/
structure Empties (link : LinkedSocket Context) (calls : Nat) : Prop where
  short : link.outputBuffer.content.length ≤ calls
  willing : link.outputBuffer.content ≠ [] → link.kernel.Willing calls

/-- With a willing kernel each write event leaves one event less to go. -/
theorem Closing.progress (closing : link.Closing) (quiet : owner.Quiet)
    {calls : Nat} (empties : link.Empties (calls + 1)) :
    ∃ after, link.handleWrite owner = .ok after ∧ after.Closing ∧
      link.Takes after [] ∧ after.Empties calls := by
  obtain ⟨after, handled, takes⟩ := closing.steady.handleWrite_takes quiet
  refine ⟨after, handled, closing.handleWrite quiet handled, takes, ?_⟩
  by_cases writing : link.isWriting = true
  · have some := closing.steady.writing_iff.mp writing
    have willing := empties.willing some
    obtain ⟨count, positive, first⟩ := willing 0 (Nat.succ_pos calls)
    obtain ⟨writes, answers⟩ : ∃ writes,
        link.kernel.writes = .accepted count :: writes := by
      cases all : link.kernel.writes with
      | nil => simp [all] at first
      | cons head writes =>
          rw [all] at first
          obtain rfl := Option.some.inj first
          exact ⟨writes, rfl⟩
    obtain ⟨written, emptied, queued, rest, shorter⟩ :=
      closing.steady.writeQueued_accepted writing positive answers
    have equal := closing.steady.handleWrite_eq quiet writing queued
    obtain rfl := Except.ok.inj (handled.symm.trans equal)
    have kept : (if emptied then written.finished else written).kernel =
          written.kernel ∧
        (if emptied then written.finished else written).outputBuffer =
          written.outputBuffer := by
      cases emptied with
      | true => exact finished_kept written
      | false => exact ⟨rfl, rfl⟩
    obtain ⟨kernel, output⟩ := kept
    have short := empties.short
    constructor
    · rw [output]
      omega
    · intro _ index bound
      rw [kernel, rest]
      have later := willing (index + 1) (Nat.succ_lt_succ bound)
      rw [answers] at later
      exact later
  · have empty : link.outputBuffer.content = [] := by
      by_contra some
      exact writing (closing.steady.writing_iff.mpr some)
    rw [LinkedSocket.handleWrite, if_neg writing] at handled
    obtain rfl := Except.ok.inj handled
    constructor
    · rw [empty]
      exact Nat.zero_le _
    · intro some
      exact (some empty).elim

theorem registered_closing (fd : Int) (highWaterMark : Nat)
    (kernel : Kernel) :
    (registered fd highWaterMark kernel : LinkedSocket Context).Closing where
  steady := registered_steady fd highWaterMark kernel
  halfCloses_eq := rfl

end LinkedSocket

section Runs

variable {Context : Type} {owner : LinkOwner Context}
variable {run next : SendRun Context}

theorem sendStep_closing (quiet : owner.Quiet) (closing : run.link.Closing)
    {action : SendAction} (stepped : sendStep owner run action = .ok next) :
    next.link.Closing := by
  cases action with
  | send message =>
      obtain ⟨link, sent, last⟩ := bind_eq_ok stepped
      obtain rfl := Except.ok.inj last
      exact closing.send quiet sent
  | sendBuffer buf =>
      obtain ⟨⟨link, rest⟩, sent, last⟩ := bind_eq_ok stepped
      obtain rfl := Except.ok.inj last
      obtain ⟨after, result, _⟩ :=
        closing.steady.send_takes quiet buf.content
      obtain ⟨other, same⟩ := LinkedSocket.sendBuffer_of_send result
      obtain ⟨rfl, _⟩ := Prod.mk.inj (Except.ok.inj (same.symm.trans sent))
      exact closing.send quiet result
  | shutdown =>
      obtain rfl := Except.ok.inj stepped
      exact closing.shutdown
  | handleWrite =>
      obtain ⟨link, handled, last⟩ := bind_eq_ok stepped
      obtain rfl := Except.ok.inj last
      exact closing.handleWrite quiet handled

/-- Write events until the queue is empty. -/
theorem drains (quiet : owner.Quiet) {calls : Nat}
    (closing : run.link.Closing) (empties : run.link.Empties calls) :
    ∃ final : SendRun Context,
      (sendMachine owner).Run run (.replicate calls .handleWrite) final ∧
      final.link.Closing ∧ run.link.Takes final.link [] ∧
      final.link.outputBuffer.content = [] := by
  induction calls generalizing run with
  | zero =>
      refine ⟨run, .refl, closing, closing.steady.refl_takes, ?_⟩
      exact List.eq_nil_of_length_eq_zero (Nat.le_zero.mp empties.short)
  | succ calls induction =>
      obtain ⟨after, handled, closingAfter, takes, fewer⟩ :=
        closing.progress quiet empties
      let next : SendRun Context := { run with link := after }
      have stepped : sendStep owner run .handleWrite = .ok next := by
        simp only [sendStep, handled]
        rfl
      have waiting : next.link.Closing := closingAfter
      obtain ⟨final, rest, closed, taken, empty⟩ := induction waiting fewer
      exact ⟨final, rest.head trivial stepped, closed, takes.trans taken,
        empty⟩

/-- In every run the half-close is made once the link is shut down and its
queue is empty, and never twice.  As soon as the kernel takes something of each
write, as many write events as bytes are queued bring all of them out, and the
half-close if it is wanted. -/
theorem run_closes (quiet : owner.Quiet) {fd : Int} {highWaterMark : Nat}
    {writes : List WriteResult} {actions : List SendAction}
    (runs : (sendMachine owner).Run (.start fd highWaterMark writes) actions
      run) :
    (run.link.halfCloses =
      if run.link.state = .kDisconnecting ∧
        run.link.outputBuffer.content = [] then 1 else 0) ∧
    ∀ calls, run.link.outputBuffer.content.length ≤ calls →
      run.link.kernel.Willing calls →
      ∃ final : SendRun Context,
        (sendMachine owner).Run run (.replicate calls .handleWrite) final ∧
        final.link.kernel.accepted =
          run.link.kernel.accepted ++ run.link.outputBuffer.content ∧
        final.link.outputBuffer.content = [] ∧
        final.link.isWriting = false ∧
        final.link.halfCloses =
          if run.link.state = .kDisconnecting then 1 else 0 := by
  have closing : run.link.Closing := by
    apply runs.state_invariant (fun run => run.link.Closing)
    · exact LinkedSocket.registered_closing fd highWaterMark _
    · intro run action next closing _ stepped
      exact sendStep_closing quiet closing stepped
  refine ⟨closing.halfCloses_eq.trans ?_, ?_⟩
  · have idle : run.link.isWriting = false ↔
        run.link.outputBuffer.content = [] := by
      rw [← Bool.not_eq_true, closing.steady.writing_iff, not_not]
    simp only [idle]
  · intro calls short willing
    obtain ⟨final, more, closed, takes, empty⟩ :=
      drains quiet closing ⟨short, fun _ => willing⟩
    have idle : final.link.isWriting = false := by
      rw [← Bool.not_eq_true, closed.steady.writing_iff, not_not]
      exact empty
    have outgoing := takes.outgoing_eq
    rw [LinkedSocket.outgoing, empty, List.append_nil, List.append_nil]
      at outgoing
    refine ⟨final, more, outgoing, empty, idle, ?_⟩
    rw [closed.halfCloses_eq, takes.state_eq]
    simp only [idle, and_true]

/-- Two bytes are queued when the link is shut down; the kernel takes one of
each write. -/
theorem shutdown_drains :
    ∃ run final : SendRun Unit,
      (sendMachine silentOwner).Run (.start 5 64
        [.accepted 1, .accepted 1, .accepted 1])
        [.send ⟨[1, 2, 3], by decide⟩, .shutdown] run ∧
      run.link.halfCloses = 0 ∧
      (sendMachine silentOwner).Run run [.handleWrite, .handleWrite] final ∧
      final.link.kernel.accepted = [1, 2, 3] ∧
      final.link.halfCloses = 1 := by
  have found : ((sendMachine silentOwner).execute
      (.start 5 64 [.accepted 1, .accepted 1, .accepted 1])
      [.send ⟨[1, 2, 3], by decide⟩, .shutdown]).any
      (fun run : SendRun Unit => run.link.kernel =
          ⟨[.accepted 1, .accepted 1], [1]⟩ ∧
        run.link.outputBuffer.content = [2, 3] ∧
        run.link.state = .kDisconnecting) = true := by
    decide +kernel
  obtain ⟨run, runs, accepted⟩ := Machine.run_of_execute found
  obtain ⟨kernel, queued, state⟩ := of_decide_eq_true accepted
  obtain ⟨once, comes⟩ := run_closes silentOwner_quiet runs
  have willing : run.link.kernel.Willing 2 := by
    rw [kernel]
    intro index bound
    refine ⟨1, Nat.one_pos, ?_⟩
    match index, bound with
    | 0, _ => rfl
    | 1, _ => rfl
  obtain ⟨final, more, taken, _, _, closed⟩ :=
    comes 2 (by simp [queued]) willing
  refine ⟨run, final, runs, ?_, more, ?_, ?_⟩
  · rw [once, queued]
    simp
  · rw [taken, kernel, queued]
    rfl
  · rw [closed, if_pos state]

end Runs

end Muduo
