import Muduo.Net.LinkViews

/-!
# High-water notifications

`Told before after grown` says what the owner hears of a function of the sending
side that queues `grown` bytes: the size of the queue, if it was below the mark
and is not any more.
-/

namespace Muduo

open Library

/-- The size that a high-water notification reports. -/
def LinkEvent.noticed : LinkEvent → Option Nat
  | .highWaterMark size => some size
  | .directWrite _ | .queuedWrite _ | .writeComplete | .shutdownWrite _ => none

/-- What is reported when the queue grows or shrinks: its size, if it was below the
mark before and is not any more. -/
def crossing (mark before after : Nat) : List Nat :=
  if before < mark ∧ mark ≤ after then [after] else []

namespace LinkedSocket

variable {Context : Type}

def queued (link : LinkedSocket Context) : Nat :=
  link.outputBuffer.readableBytes

/-- The sizes that the owner was told of. -/
def notices (link : LinkedSocket Context) : List Nat :=
  link.trace.filterMap LinkEvent.noticed

/-- What a send of `data` leaves to be queued, by the coming answer of the kernel.
Nothing is queued on a broken connection. -/
def leftover (link : LinkedSocket Context) (data : List Byte) : Nat :=
  if link.outputBuffer.content ≠ [] then data.length
  else
    match link.kernel.writes with
    | [] => data.length
    | .accepted count :: _ => data.length - count
    | .failed errno :: _ =>
        if errno = .epipe ∨ errno = .econnreset then 0 else data.length

/-- The owner is told if `grown` queued bytes reach the mark, and of nothing else. -/
structure Told (before after : LinkedSocket Context) (grown : Nat) : Prop where
  mark_eq : after.highWaterMark = before.highWaterMark
  notices_eq : after.notices = before.notices ++
    crossing before.highWaterMark before.queued (before.queued + grown)
  queued_le : after.queued ≤ before.queued + grown
  queued_eq : 0 < grown → after.queued = before.queued + grown

theorem crossing_of_le {mark before after : Nat} (shrinks : after ≤ before) :
    crossing mark before after = [] := by
  apply if_neg
  omega

theorem crossing_zero (mark before : Nat) : crossing mark before (before + 0) = [] :=
  crossing_of_le (Nat.le_refl before)

theorem told_of_same {before after : LinkedSocket Context}
    (mark : after.highWaterMark = before.highWaterMark)
    (notices : after.notices = before.notices)
    (queued : after.queued ≤ before.queued) : before.Told after 0 where
  mark_eq := mark
  notices_eq := by
    rw [notices, crossing_zero, List.append_nil]
  queued_le := queued
  queued_eq := by simp

theorem Told.then_grow {first second third : LinkedSocket Context} {grown : Nat}
    (before : first.Told second 0) (same : second.queued = first.queued)
    (after : second.Told third grown) : first.Told third grown where
  mark_eq := after.mark_eq.trans before.mark_eq
  notices_eq := by
    rw [after.notices_eq, before.notices_eq, before.mark_eq, same,
      crossing_zero, List.append_nil]
  queued_le := same ▸ after.queued_le
  queued_eq := by
    rw [← same]
    exact after.queued_eq

theorem Told.trans_zero {first second third : LinkedSocket Context}
    (before : first.Told second 0) (after : second.Told third 0) :
    first.Told third 0 := by
  have shorter := before.queued_le
  have shortest := after.queued_le
  apply told_of_same
  · exact after.mark_eq.trans before.mark_eq
  · rw [after.notices_eq, before.notices_eq, crossing_zero,
      crossing_zero, List.append_nil, List.append_nil]
  · omega

/-- The notice is the crossing from the old queue to the new one. -/
theorem Told.notices_crossing {before after : LinkedSocket Context} {grown : Nat}
    (told : before.Told after grown) :
    after.notices = before.notices ++
      crossing before.highWaterMark before.queued after.queued := by
  rw [told.notices_eq]
  by_cases grows : 0 < grown
  · rw [told.queued_eq grows]
  · obtain rfl : grown = 0 := by omega
    have shrinks : after.queued ≤ before.queued := told.queued_le
    rw [crossing_zero, crossing_of_le shrinks]

theorem notices_record (link : LinkedSocket Context) (event : LinkEvent) :
    (link.record event).notices = link.notices ++ event.noticed.toList := by
  have taken : (link.record event).trace = link.trace ++ [event] := rfl
  rw [notices, notices, taken, List.filterMap_append]
  cases event <;> rfl

theorem told_record (link : LinkedSocket Context) {event : LinkEvent}
    (other : event.noticed = none) : link.Told (link.record event) 0 := by
  apply told_of_same
  · rfl
  · rw [notices_record, other]
    exact List.append_nil _
  · exact Nat.le_refl _

theorem Steady.writeDirectly_told {link : LinkedSocket Context}
    (steady : link.Steady) (data : List Byte) :
    link.Told (link.writeDirectly data).1 0 ∧
      (link.writeDirectly data).1.queued = link.queued ∧
      (if (link.writeDirectly data).2.faultError then 0
        else (link.writeDirectly data).2.remaining.length) =
          link.leftover data := by
  have unwritten : ∀ kernel result,
      link.Told (({ link with kernel } : LinkedSocket Context).record
        (.directWrite result)) 0 := by
    intro kernel result
    have moved : link.Told { link with kernel } 0 :=
      told_of_same rfl rfl (Nat.le_refl _)
    exact moved.trans_zero (told_record _ rfl)
  have size := steady.output_sound.length_content
  by_cases empty : link.outputBuffer.content = []
  · have idle : !link.isWriting ∧ link.outputBuffer.readableBytes = 0 := by
      have silent : ¬ link.isWriting = true := by
        rw [steady.writing_iff, not_not]
        exact empty
      rw [← size, empty]
      simpa using silent
    simp only [LinkedSocket.writeDirectly, if_pos idle, leftover, empty, ne_eq, not_true,
      if_false, Kernel.write]
    cases link.kernel.writes with
    | nil =>
        refine ⟨unwritten _ _, rfl, ?_⟩
        simp
    | cons answer writes =>
        cases answer with
        | accepted count =>
            refine ⟨unwritten _ _, rfl, ?_⟩
            simp only [Bool.false_eq_true, if_false, List.length_drop]
            omega
        | failed errno =>
            refine ⟨unwritten _ _, rfl, ?_⟩
            simp
  · have busy : ¬ (!link.isWriting ∧ link.outputBuffer.readableBytes = 0) := by
      intro idle
      apply empty
      apply List.eq_nil_of_length_eq_zero
      rw [size]
      exact idle.2
    rw [LinkedSocket.writeDirectly, if_neg busy, leftover, if_pos empty]
    refine ⟨told_of_same rfl rfl (Nat.le_refl _), rfl, ?_⟩
    simp

variable {owner : LinkOwner Context}

theorem reportComplete_told (quiet : owner.Quiet) (link : LinkedSocket Context)
    (completed : Bool) :
    ∃ after, link.reportComplete owner completed = .ok after ∧
      link.Told after 0 ∧ after.queued = link.queued := by
  cases completed with
  | true =>
      refine ⟨link.record .writeComplete, quiet.writeComplete _, ?_, rfl⟩
      exact told_record link rfl
  | false => exact ⟨link, rfl, told_of_same rfl rfl (Nat.le_refl _), rfl⟩

/-- The report before queueing is of the size that the queue is about to have. -/
theorem reportHighWater_tells (quiet : owner.Quiet)
    {link warned : LinkedSocket Context} {size : Nat}
    (reported : link.reportHighWater owner size = .ok warned) :
    warned.highWaterMark = link.highWaterMark ∧ warned.queued = link.queued ∧
      warned.notices = link.notices ++
        crossing link.highWaterMark link.queued (link.queued + size) := by
  simp only [reportHighWater, quiet.highWaterMark] at reported
  by_cases reaches : link.reachesHighWater size = true
  · rw [if_pos reaches] at reported
    obtain rfl := Except.ok.inj reported
    refine ⟨rfl, rfl, ?_⟩
    have crossed : link.queued < link.highWaterMark ∧
        link.highWaterMark ≤ link.queued + size :=
      (of_decide_eq_true reaches).symm
    rw [notices_record, crossing, if_pos crossed]
    rfl
  · rw [if_neg reaches] at reported
    obtain rfl := Except.ok.inj reported
    refine ⟨rfl, rfl, ?_⟩
    have uncrossed : ¬ (link.queued < link.highWaterMark ∧
        link.highWaterMark ≤ link.queued + size) := by
      intro crossed
      exact reaches (decide_eq_true crossed.symm)
    rw [crossing, if_neg uncrossed, List.append_nil]

theorem Steady.queueOutput_tells {link after : LinkedSocket Context}
    (steady : link.Steady) {data : List Byte}
    (queueing : link.queueOutput data = .ok after) :
    after.highWaterMark = link.highWaterMark ∧ after.notices = link.notices ∧
      after.queued = link.queued + data.length := by
  obtain ⟨outputBuffer, appended, rest⟩ := bind_eq_ok queueing
  obtain ⟨buffer, result, becomes⟩ := steady.output_sound.append data
  obtain rfl := Except.ok.inj (appended.symm.trans result)
  have size : outputBuffer.readableBytes = link.queued + data.length := by
    rw [← becomes.sound.length_content, becomes.content_eq, List.length_append,
      steady.output_sound.length_content]
    rfl
  by_cases writing :
      ({ link with outputBuffer } : LinkedSocket Context).isWriting = true
  · simp only [if_pos writing] at rest
    cases rest
    exact ⟨rfl, rfl, size⟩
  · simp only [if_neg writing] at rest
    obtain ⟨handler, _, registered⟩ := bind_eq_ok rest
    cases registered
    exact ⟨rfl, rfl, size⟩

theorem Steady.sendRest_told (quiet : owner.Quiet) {link : LinkedSocket Context}
    (steady : link.Steady) {length : Nat} {sending : Sending}
    (shorter : sending.remaining.length ≤ length) :
    ∃ after, link.sendRest owner length sending = .ok after ∧
      link.Told after
        (if sending.faultError then 0 else sending.remaining.length) := by
  simp only [LinkedSocket.sendRest, assertThat_bind, if_pos shorter]
  by_cases more : !sending.faultError ∧ 0 < sending.remaining.length
  · have sound : sending.faultError = false := by simpa using more.1
    have nonempty : sending.remaining ≠ [] := List.length_pos_iff.mp more.2
    obtain ⟨warned, warning, flow⟩ :=
      steady.reportHighWater quiet sending.remaining.length
    obtain ⟨after, queueing, queued⟩ := flow.steady.queueOutput nonempty
    obtain ⟨warnedMark, unmoved, told⟩ := reportHighWater_tells quiet warning
    obtain ⟨mark, untold, grown⟩ := flow.steady.queueOutput_tells queueing
    rw [unmoved] at grown
    rw [if_pos more, warning, ok_bind, queueing, sound]
    exact ⟨after, rfl, mark.trans warnedMark, untold.trans told,
      Nat.le_of_eq grown, fun _ => grown⟩
  · rw [if_neg more]
    refine ⟨link, rfl, ?_⟩
    have nothing :
        (if sending.faultError then 0 else sending.remaining.length) = 0 := by
      simpa [imp_iff_not_or] using more
    rw [nothing]
    exact told_of_same rfl rfl (Nat.le_refl _)

theorem Steady.sendInLoop_told (quiet : owner.Quiet)
    {link : LinkedSocket Context} (steady : link.Steady)
    (alive : link.state ≠ .kDisconnected) (data : List Byte) :
    ∃ after, link.sendInLoop owner data = .ok after ∧
      link.Told after (link.leftover data) := by
  obtain ⟨taken, split, written, _⟩ := steady.writeDirectly data
  obtain ⟨untold, unmoved, leaves⟩ := steady.writeDirectly_told data
  simp only [LinkedSocket.sendInLoop, if_neg alive]
  generalize link.writeDirectly data = outcome at *
  obtain ⟨direct, sending⟩ := outcome
  simp only at *
  obtain ⟨completed, reported, flow⟩ :=
    written.steady.reportComplete quiet sending.completed
  obtain ⟨same, reportedToo, silent, still⟩ :=
    reportComplete_told quiet direct sending.completed
  obtain rfl := Except.ok.inj (reported.symm.trans reportedToo)
  have shorter : sending.remaining.length ≤ data.length := by
    rw [split, List.length_append]
    omega
  obtain ⟨after, result, told⟩ := flow.steady.sendRest_told quiet shorter
  rw [leaves] at told
  refine ⟨after, by rw [reported, ok_bind, result], ?_⟩
  exact (untold.trans_zero silent).then_grow (still.trans unmoved) told

theorem Steady.send_told (quiet : owner.Quiet) {link : LinkedSocket Context}
    (steady : link.Steady) (message : List Byte) :
    ∃ after, link.send owner message = .ok after ∧
      link.Told after
        (if link.state = .kConnected then link.leftover message else 0) := by
  by_cases connected : link.state = .kConnected
  · rw [LinkedSocket.send, if_pos connected, if_pos connected]
    exact steady.sendInLoop_told quiet (by simp [connected]) message
  · rw [LinkedSocket.send, if_neg connected, if_neg connected]
    exact ⟨link, rfl, told_of_same rfl rfl (Nat.le_refl _)⟩

theorem Steady.sendBuffer_told (quiet : owner.Quiet)
    {link : LinkedSocket Context} (steady : link.Steady) (buf : Buffer) :
    ∃ after rest, link.sendBuffer owner buf = .ok (after, rest) ∧
      link.Told after
        (if link.state = .kConnected then link.leftover buf.content else 0) := by
  obtain ⟨after, sent, told⟩ := steady.send_told quiet buf.content
  obtain ⟨rest, result⟩ := sendBuffer_of_send sent
  exact ⟨after, rest, result, told⟩

theorem told_shutdownInLoop (link : LinkedSocket Context) :
    link.Told link.shutdownInLoop 0 := by
  unfold shutdownInLoop
  split
  · exact told_of_same rfl rfl (Nat.le_refl _)
  · exact told_record link rfl

theorem told_shutdown (link : LinkedSocket Context) :
    link.Told link.shutdown 0 := by
  unfold shutdown
  split
  · have closing : link.Told (link.setState .kDisconnecting) 0 :=
      told_of_same rfl rfl (Nat.le_refl _)
    exact closing.trans_zero (told_shutdownInLoop _)
  · exact told_of_same rfl rfl (Nat.le_refl _)

theorem Steady.writeQueued_told {link written : LinkedSocket Context}
    {emptied : Bool} (steady : link.Steady)
    (wrote : link.writeQueued = .ok (written, emptied)) :
    link.Told written 0 := by
  have size := steady.output_sound.length_content
  have recorded : ∀ kernel result,
      link.Told (({ link with kernel } : LinkedSocket Context).record
        (.queuedWrite result)) 0 := by
    intro kernel result
    have moved : link.Told { link with kernel } 0 :=
      told_of_same rfl rfl (Nat.le_refl _)
    exact moved.trans_zero (told_record _ rfl)
  have answers := kernel_write_cases link.kernel link.outputBuffer.content
  simp only [LinkedSocket.writeQueued] at wrote
  rcases answers with ⟨errno, result, _⟩ | ⟨count, bound, result, _⟩
  · rw [result] at wrote
    cases wrote
    exact recorded _ _
  · rw [result] at wrote
    by_cases positive : 0 < count
    · have fits : count ≤ link.outputBuffer.readableBytes := by omega
      obtain ⟨outputBuffer, retrieved, becomes⟩ :=
        steady.output_sound.retrieve fits
      simp only [if_pos positive, LinkedSocket.record, retrieved, ok_bind] at wrote
      cases wrote
      refine (recorded (link.kernel.write link.outputBuffer.content).2
        (.accepted count)).trans_zero (told_of_same rfl rfl ?_)
      have left := becomes.sound.length_content
      rw [becomes.content_eq, List.length_drop, size] at left
      have shrinks : outputBuffer.readableBytes ≤
          link.outputBuffer.readableBytes := by omega
      exact shrinks
    · simp only [if_neg positive] at wrote
      cases wrote
      exact recorded _ _

theorem Steady.handleWrite_told (quiet : owner.Quiet)
    {link : LinkedSocket Context} (steady : link.Steady) :
    ∃ after, link.handleWrite owner = .ok after ∧ link.Told after 0 := by
  by_cases writing : link.isWriting = true
  · obtain ⟨written, emptied, result, _, whole⟩ := steady.writeQueued writing
    have told := steady.writeQueued_told result
    simp only [LinkedSocket.handleWrite, if_pos writing, result, ok_bind]
    cases emptied with
    | false => exact ⟨written, rfl, told⟩
    | true =>
        have drained := (whole rfl).steady
        have registered := updateInPoll_mod drained.added drained.reading
        have disabled : written.Told written.disableWriting 0 :=
          told_of_same rfl rfl (Nat.le_refl _)
        have completed : written.disableWriting.Told
            (written.disableWriting.record .writeComplete) 0 :=
          told_record _ rfl
        have reported := (told.trans_zero disabled).trans_zero completed
        simp only [if_true, registered, ok_bind, quiet.writeComplete]
        split
        · exact ⟨_, rfl, reported.trans_zero (told_shutdownInLoop _)⟩
        · exact ⟨_, rfl, reported⟩
  · rw [LinkedSocket.handleWrite, if_neg writing]
    exact ⟨link, rfl, told_of_same rfl rfl (Nat.le_refl _)⟩

end LinkedSocket

/-- The bytes that an action hands to the link. -/
def SendAction.data : SendAction → Option (List Byte)
  | .send message => some message.bytes
  | .sendBuffer buf => some buf.content
  | .shutdown | .handleWrite => none

/-- The bytes by which an action makes the queue grow. -/
def SendRun.grown {Context : Type} (run : SendRun Context)
    (action : SendAction) : Nat :=
  match action.data with
  | some data =>
      if run.link.state = .kConnected then run.link.leftover data else 0
  | none => 0

section Notices

variable {Context : Type} {owner : LinkOwner Context}

theorem sendStep_told (quiet : owner.Quiet) {run : SendRun Context}
    (steady : run.link.Steady) (action : SendAction) :
    ∃ next, sendStep owner run action = .ok next ∧
      run.link.Told next.link (run.grown action) := by
  cases action with
  | send message =>
      obtain ⟨after, result, told⟩ := steady.send_told quiet message.bytes
      simp only [sendStep, result, ok_bind]
      exact ⟨_, rfl, told⟩
  | sendBuffer buf =>
      obtain ⟨after, rest, result, told⟩ := steady.sendBuffer_told quiet buf
      simp only [sendStep, result, ok_bind]
      exact ⟨_, rfl, told⟩
  | shutdown => exact ⟨_, rfl, LinkedSocket.told_shutdown _⟩
  | handleWrite =>
      obtain ⟨after, result, told⟩ := steady.handleWrite_told quiet
      simp only [sendStep, result, ok_bind]
      exact ⟨_, rfl, told⟩

/-- The notices of each action, one list for each. -/
def toldSizes (owner : LinkOwner Context) (run : SendRun Context)
    (action : SendAction) : List (List Nat) :=
  match sendStep owner run action with
  | .ok next => [next.link.notices.drop run.link.notices.length]
  | .error _ => [[]]

/-- The queue reaches both marks in this step, or none of them. -/
def ReachesBoth (second : Nat) (run : SendRun Context) (action : SendAction) :
    Prop :=
  (run.link.queued < run.link.highWaterMark ∧
      run.link.highWaterMark ≤ run.link.queued + run.grown action) ↔
    (run.link.queued < second ∧
      second ≤ run.link.queued + run.grown action)

instance (second : Nat) (run : SendRun Context) (action : SendAction) :
    Decidable (ReachesBoth second run action) :=
  inferInstanceAs (Decidable (_ ↔ _))

theorem crossing_eq_iff {first second before after : Nat} :
    crossing first before after = crossing second before after ↔
      ((before < first ∧ first ≤ after) ↔ (before < second ∧ second ≤ after)) := by
  by_cases low : before < first ∧ first ≤ after
  · by_cases high : before < second ∧ second ≤ after
    · simp [crossing, low, high]
    · simp [crossing, low, high]
  · by_cases high : before < second ∧ second ≤ after
    · simp [crossing, low, high]
    · simp [crossing, low, high]

theorem toldSizes_eq (quiet : owner.Quiet) {run : SendRun Context}
    (steady : run.link.Steady) (action : SendAction) :
    toldSizes owner run action = [crossing run.link.highWaterMark
      run.link.queued (run.link.queued + run.grown action)] := by
  obtain ⟨next, result, told⟩ := sendStep_told quiet steady action
  simp only [toldSizes, result, told.notices_eq, List.drop_left]

/-- What the traffic alone decides: how much is queued and how much comes to it. -/
theorem grown_of_unmarked {left right : SendRun Context}
    (same : left.unmarked = right.unmarked) (action : SendAction) :
    left.link.queued = right.link.queued ∧
      left.grown action = right.grown action := by
  have links : left.link.unmarked = right.link.unmarked :=
    congrArg SendRun.link same
  have output : left.link.outputBuffer = right.link.outputBuffer := by
    have views := congrArg LinkedSocket.outputBuffer links
    exact views
  have kernel : left.link.kernel = right.link.kernel := by
    have views := congrArg LinkedSocket.kernel links
    exact views
  have state : left.link.state = right.link.state := by
    have views := congrArg LinkedSocket.state links
    exact views
  constructor
  · rw [LinkedSocket.queued, output, LinkedSocket.queued]
  · simp only [SendRun.grown, LinkedSocket.leftover, output, kernel, state]

variable {fd : Int} {first second : Nat} {writes : List WriteResult}
variable {actions : List SendAction}

theorem run_steady (quiet : owner.Quiet) {run : SendRun Context}
    (runs : (sendMachine owner).Run (.start fd first writes) actions run) :
    run.link.Steady ∧ run.link.highWaterMark = first := by
  apply runs.progress_invariant
    (fun run => run.link.Steady ∧ run.link.highWaterMark = first)
  · exact ⟨LinkedSocket.registered_steady fd first _, rfl⟩
  · rintro run action ⟨steady, mark⟩ _
    obtain ⟨next, taken, result, flow, _⟩ := sendStep_flow quiet steady action
    obtain ⟨same, again, told⟩ := sendStep_told quiet steady action
    obtain rfl := Except.ok.inj (result.symm.trans again)
    exact ⟨next, result, flow.steady, told.mark_eq.trans mark⟩

/-- Two runs of one traffic stay in step. -/
theorem runs_unmarked (quiet : owner.Quiet) {left right : SendRun Context}
    (leftRun : (sendMachine owner).Run (.start fd first writes) actions left)
    (rightRun : (sendMachine owner).Run (.start fd second writes) actions
      right) :
    left.unmarked = right.unmarked := by
  induction leftRun generalizing right with
  | refl =>
      rw [rightRun.of_nil]
      rfl
  | @step _ state next action _ _ stepped induction =>
      obtain ⟨other, earlier, _, steppedToo⟩ := rightRun.unsnoc
      have both := sendStep_unmarked quiet (induction earlier) action
      have leftStep : sendStep owner state action = .ok next := stepped
      have rightStep : sendStep owner other action = .ok right := steppedToo
      rw [leftStep, rightStep] at both
      exact Except.ok.inj both

/-- One step sounds the same to both owners exactly if it concerns both marks. -/
theorem toldSizes_alike_iff (quiet : owner.Quiet) {left right : SendRun Context}
    (leftRun : (sendMachine owner).Run (.start fd first writes) actions left)
    (rightRun : (sendMachine owner).Run (.start fd second writes) actions
      right) (action : SendAction) :
    (toldSizes owner left action).length =
        (toldSizes owner right action).length ∧
      (toldSizes owner left action = toldSizes owner right action ↔
        ReachesBoth second left action) := by
  have same := runs_unmarked quiet leftRun rightRun
  obtain ⟨queued, grown⟩ := grown_of_unmarked same action
  obtain ⟨steady, _⟩ := run_steady quiet leftRun
  obtain ⟨steadyToo, markToo⟩ := run_steady quiet rightRun
  rw [toldSizes_eq quiet steady, toldSizes_eq quiet steadyToo, ← queued,
    ← grown, markToo, List.singleton_inj, crossing_eq_iff]
  exact ⟨rfl, Iff.rfl⟩

/-- What one step adds to the notices, and which steps add something. -/
theorem step_notices (quiet : owner.Quiet) {run : SendRun Context}
    (runs : (sendMachine owner).Run (.start fd first writes) actions run)
    (action : SendAction) :
    ∃ next, sendStep owner run action = .ok next ∧
      next.link.notices = run.link.notices ++
        crossing first run.link.queued next.link.queued ∧
      (next.link.notices ≠ run.link.notices → action.data.isSome) := by
  obtain ⟨steady, mark⟩ := run_steady quiet runs
  obtain ⟨next, result, told⟩ := sendStep_told quiet steady action
  refine ⟨next, result, mark ▸ told.notices_crossing, ?_⟩
  intro heard
  cases data : action.data with
  | some data => rfl
  | none =>
      have nothing : run.grown action = 0 := by
        rw [SendRun.grown, data]
      rw [told.notices_eq, nothing, LinkedSocket.crossing_zero,
        List.append_nil] at heard
      exact (heard rfl).elim

/-- The owner of two links, alike but for the memory that their mark was found in,
hears the same of one traffic exactly if no send takes the queue to one of the
marks and not to the other.  In a single run it hears of the crossings of its mark
and of nothing else. -/
theorem notices_of_traffic_iff (quiet : owner.Quiet)
    {left right : SendRun Context}
    (leftRun : (sendMachine owner).Run (.start fd first writes) actions left)
    (rightRun : (sendMachine owner).Run (.start fd second writes) actions
      right) :
    ((sendMachine owner).observed (toldSizes owner) (.start fd first writes)
          actions =
        (sendMachine owner).observed (toldSizes owner) (.start fd second writes)
          actions ↔
      ((sendMachine owner).restrict (ReachesBoth second)).Run
        (.start fd first writes) actions left) ∧
    ∀ before action after run, actions = before ++ action :: after →
      (sendMachine owner).Run (.start fd first writes) before run →
      ∃ next, sendStep owner run action = .ok next ∧
        next.link.notices = run.link.notices ++
          crossing first run.link.queued next.link.queued ∧
        (next.link.notices ≠ run.link.notices → action.data.isSome) := by
  constructor
  · induction leftRun generalizing right with
    | refl => exact ⟨fun _ => .refl, fun _ => rfl⟩
    | @step actions state next action before enabled stepped induction =>
        obtain ⟨other, beforeToo, _, steppedToo⟩ := rightRun.unsnoc
        obtain ⟨sizes, alike⟩ := toldSizes_alike_iff quiet before beforeToo action
        rw [before.observed_concat stepped, beforeToo.observed_concat steppedToo]
        constructor
        · intro heard
          obtain ⟨earlier, last⟩ := List.append_inj' heard sizes
          exact .step ((induction beforeToo).mp earlier)
            ⟨enabled, alike.mp last⟩ stepped
        · intro restricted
          obtain ⟨middle, earlier, ⟨_, met⟩, _⟩ := restricted.unsnoc
          obtain rfl := before.unique earlier.of_restrict
          rw [(induction beforeToo).mpr earlier, alike.mpr met]
  · intro before action after run split reached
    exact step_notices quiet reached action

/-- Two marks that the same send of seven bytes reaches. -/
theorem notices_of_traffic_iff_example :
    (sendMachine (silentOwner : LinkOwner Unit)).observed
        (toldSizes silentOwner) (.start 5 4 [.accepted 1])
        [.send ⟨[1, 2, 3, 4, 5, 6, 7], by decide⟩, .handleWrite] =
      (sendMachine (silentOwner : LinkOwner Unit)).observed
        (toldSizes silentOwner) (.start 5 5 [.accepted 1])
        [.send ⟨[1, 2, 3, 4, 5, 6, 7], by decide⟩, .handleWrite] := by
  have first : (((sendMachine silentOwner).restrict (ReachesBoth 5)).execute
      (.start 5 4 [.accepted 1])
      [.send ⟨[1, 2, 3, 4, 5, 6, 7], by decide⟩, .handleWrite]).any
      (fun _ : SendRun Unit => true) = true := by
    decide +kernel
  have second : ((sendMachine silentOwner).execute (.start 5 5 [.accepted 1])
      [.send ⟨[1, 2, 3, 4, 5, 6, 7], by decide⟩, .handleWrite]).any
      (fun _ : SendRun Unit => true) = true := by
    decide +kernel
  obtain ⟨left, restricted, _⟩ := Machine.run_of_execute first
  obtain ⟨right, rightRun, _⟩ := Machine.run_of_execute second
  have exactly := notices_of_traffic_iff silentOwner_quiet
    restricted.of_restrict rightRun
  exact exactly.1.mpr restricted

/-- Five queued bytes reach a mark of four; a mark of zero is never reached. -/
theorem notices_depend_on_memory :
    ∃ left right : SendRun Unit,
      (sendMachine silentOwner).Run (.start 5 4 [])
        [.send ⟨[1, 2, 3, 4, 5], by decide⟩] left ∧
      (sendMachine silentOwner).Run (.start 5 0 [])
        [.send ⟨[1, 2, 3, 4, 5], by decide⟩] right ∧
      (sendMachine (silentOwner : LinkOwner Unit)).observed
          (toldSizes silentOwner) (.start 5 4 [])
          [.send ⟨[1, 2, 3, 4, 5], by decide⟩] = [[5]] ∧
      (sendMachine (silentOwner : LinkOwner Unit)).observed
          (toldSizes silentOwner) (.start 5 0 [])
          [.send ⟨[1, 2, 3, 4, 5], by decide⟩] = [[]] := by
  have first : ((sendMachine silentOwner).execute (.start 5 4 [])
      [.send ⟨[1, 2, 3, 4, 5], by decide⟩]).any
      (fun _ : SendRun Unit => true) = true := by
    decide +kernel
  have second : ((sendMachine silentOwner).execute (.start 5 0 [])
      [.send ⟨[1, 2, 3, 4, 5], by decide⟩]).any
      (fun _ : SendRun Unit => true) = true := by
    decide +kernel
  obtain ⟨left, leftRun, _⟩ := Machine.run_of_execute first
  obtain ⟨right, rightRun, _⟩ := Machine.run_of_execute second
  refine ⟨left, right, leftRun, rightRun, ?_, ?_⟩
  · decide +kernel
  · decide +kernel

end Notices

end Muduo
