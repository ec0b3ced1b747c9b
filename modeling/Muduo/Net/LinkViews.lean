import Muduo.Net.SendRuns

/-!
# Links up to their mark

The constructor of a link leaves `highWaterMark_` as it finds it.  Two links that
differ in nothing but this mark, and in what they called, go through the same
traffic in step.
-/

namespace Muduo

namespace LinkedSocket

variable {Context : Type}

/-- All of a link but the mark and what it called. -/
def unmarked (link : LinkedSocket Context) : LinkedSocket Context :=
  { link with highWaterMark := 0, trace := [] }

/-- What the function leaves, apart from the mark and the calls, does not depend
on them. -/
def Blind (function : LinkedSocket Context → Checked (LinkedSocket Context)) :
    Prop :=
  ∀ link, (function link).map unmarked = (function link.unmarked).map unmarked

theorem Blind.congr
    {function : LinkedSocket Context → Checked (LinkedSocket Context)}
    (blind : Blind function) {left right : LinkedSocket Context}
    (same : left.unmarked = right.unmarked) :
    (function left).map unmarked = (function right).map unmarked := by
  rw [blind left, same, ← blind right]

theorem blind_writeDirectly (link : LinkedSocket Context) (data : List Byte) :
    (link.writeDirectly data).1.unmarked =
        (link.unmarked.writeDirectly data).1.unmarked ∧
      (link.writeDirectly data).2 = (link.unmarked.writeDirectly data).2 := by
  have writing : link.unmarked.isWriting = link.isWriting := rfl
  have output : link.unmarked.outputBuffer = link.outputBuffer := rfl
  have kernel : link.unmarked.kernel = link.kernel := rfl
  simp only [writeDirectly, writing, output, kernel]
  split
  · cases (link.kernel.write data).1 with
    | accepted count => exact ⟨rfl, rfl⟩
    | failed errno => exact ⟨rfl, rfl⟩
  · exact ⟨rfl, rfl⟩

variable {owner : LinkOwner Context}

theorem reportComplete_unmarked (quiet : owner.Quiet)
    (link : LinkedSocket Context) (completed : Bool) :
    (link.reportComplete owner completed).map unmarked = .ok link.unmarked := by
  cases completed with
  | true =>
      have reported : link.reportComplete owner true =
          .ok (link.record .writeComplete) := quiet.writeComplete _
      rw [reported]
      rfl
  | false => rfl

theorem reportHighWater_unmarked (quiet : owner.Quiet)
    (link : LinkedSocket Context) (size : Nat) :
    (link.reportHighWater owner size).map unmarked = .ok link.unmarked := by
  simp only [reportHighWater, quiet.highWaterMark]
  split <;> rfl

theorem blind_updateInPoll (flag : OptFlag) :
    Blind fun link : LinkedSocket Context => link.updateInPoll flag := by
  intro link
  have handler : link.unmarked.handler = link.handler := rfl
  simp only [updateInPoll, handler]
  cases link.handler.updateInPoll flag <;> rfl

theorem blind_queueOutput (data : List Byte) :
    Blind fun link : LinkedSocket Context => link.queueOutput data := by
  intro link
  have output : link.unmarked.outputBuffer = link.outputBuffer := rfl
  simp only [queueOutput, output]
  cases link.outputBuffer.append data with
  | error fault => rfl
  | ok outputBuffer =>
      have writing : ({ link.unmarked with outputBuffer } :
          LinkedSocket Context).isWriting =
          ({ link with outputBuffer } : LinkedSocket Context).isWriting := rfl
      simp only [ok_bind, writing]
      split
      · rfl
      · exact (blind_updateInPoll .ModEvent).congr rfl

theorem blind_sendRest (quiet : owner.Quiet) (length : Nat)
    (sending : Sending) :
    Blind fun link : LinkedSocket Context =>
      link.sendRest owner length sending := by
  intro link
  simp only [sendRest, assertThat_bind]
  split
  · split
    · apply map_bind_congr
      · rw [reportHighWater_unmarked quiet, reportHighWater_unmarked quiet]
        rfl
      · intro left right same
        exact (blind_queueOutput sending.remaining).congr same
    · rfl
  · rfl

theorem blind_sendInLoop (quiet : owner.Quiet) (data : List Byte) :
    Blind fun link : LinkedSocket Context => link.sendInLoop owner data := by
  intro link
  have state : link.unmarked.state = link.state := rfl
  obtain ⟨direct, sending⟩ := blind_writeDirectly link data
  simp only [sendInLoop, state, ← sending]
  split
  · rfl
  · apply map_bind_congr
    · rw [reportComplete_unmarked quiet, reportComplete_unmarked quiet, direct]
    · intro left right same
      exact (blind_sendRest quiet data.length _).congr same

theorem blind_send (quiet : owner.Quiet) (message : List Byte) :
    Blind fun link : LinkedSocket Context => link.send owner message := by
  intro link
  have state : link.unmarked.state = link.state := rfl
  simp only [send, state]
  split
  · exact blind_sendInLoop quiet message link
  · rfl

theorem blind_sendBuffer (quiet : owner.Quiet) (buf : Buffer)
    (link : LinkedSocket Context) :
    (link.sendBuffer owner buf).map (Prod.map unmarked id) =
      (link.unmarked.sendBuffer owner buf).map (Prod.map unmarked id) := by
  have state : link.unmarked.state = link.state := rfl
  simp only [sendBuffer, state]
  split
  · apply map_bind_congr (blind_sendInLoop quiet buf.content link)
    intro left right same
    exact congrArg (fun view => Except.ok (view, buf.retrieveAll)) same
  · rfl

theorem shutdownInLoop_unmarked (link : LinkedSocket Context) :
    link.shutdownInLoop.unmarked = link.unmarked := by
  unfold shutdownInLoop
  split <;> rfl

theorem blind_shutdown (link : LinkedSocket Context) :
    link.shutdown.unmarked = link.unmarked.shutdown.unmarked := by
  have state : link.unmarked.state = link.state := rfl
  simp only [shutdown, state]
  split
  · rw [shutdownInLoop_unmarked, shutdownInLoop_unmarked]
    rfl
  · rfl

theorem blind_writeQueued (link : LinkedSocket Context) :
    link.writeQueued.map (Prod.map unmarked id) =
      link.unmarked.writeQueued.map (Prod.map unmarked id) := by
  have output : link.unmarked.outputBuffer = link.outputBuffer := rfl
  have kernel : link.unmarked.kernel = link.kernel := rfl
  simp only [writeQueued, output, kernel]
  cases (link.kernel.write link.outputBuffer.content).1 with
  | failed errno => rfl
  | accepted count =>
      simp only [record]
      split
      · cases link.outputBuffer.retrieve count <;> rfl
      · rfl

theorem blind_drained (quiet : owner.Quiet) :
    Blind fun link : LinkedSocket Context => do
      let link ← link.disableWriting.updateInPoll .ModEvent
      let link ← owner.writeComplete (link.record .writeComplete)
      if link.state = .kDisconnecting then
        return link.shutdownInLoop
      else return link := by
  intro link
  apply map_bind_congr
  · exact (blind_updateInPoll .ModEvent).congr rfl
  · intro left right same
    have state : left.state = right.state := by
      have views := congrArg LinkedSocket.state same
      exact views
    have leftState : (left.record .writeComplete).state = left.state := rfl
    have rightState : (right.record .writeComplete).state = right.state := rfl
    simp only [quiet.writeComplete, ok_bind, leftState, rightState, state]
    have shutdown : ((left.record .writeComplete).shutdownInLoop).unmarked =
        ((right.record .writeComplete).shutdownInLoop).unmarked := by
      rw [shutdownInLoop_unmarked, shutdownInLoop_unmarked]
      exact same
    split
    · exact congrArg Except.ok shutdown
    · exact congrArg Except.ok same

theorem blind_handleWrite (quiet : owner.Quiet) :
    Blind fun link : LinkedSocket Context => link.handleWrite owner := by
  intro link
  have writing : link.unmarked.isWriting = link.isWriting := rfl
  simp only [handleWrite, writing]
  split
  · apply map_bind_congr (blind_writeQueued link)
    intro left right same
    obtain ⟨views, flags⟩ := Prod.mk.inj same
    simp only [id] at flags
    rw [flags]
    split
    · exact (blind_drained quiet).congr views
    · exact congrArg Except.ok views
  · rfl

end LinkedSocket

namespace SendRun

variable {Context : Type}

/-- A run without the mark and the calls of its link. -/
def unmarked (run : SendRun Context) : SendRun Context :=
  { run with link := run.link.unmarked }

end SendRun

variable {Context : Type} {owner : LinkOwner Context}

/-- Two runs in step stay in step. -/
theorem sendStep_unmarked (quiet : owner.Quiet) {left right : SendRun Context}
    (same : left.unmarked = right.unmarked) (action : SendAction) :
    (sendStep owner left action).map SendRun.unmarked =
      (sendStep owner right action).map SendRun.unmarked := by
  have links : left.link.unmarked = right.link.unmarked :=
    congrArg SendRun.link same
  have sent : left.sent = right.sent := by
    have views := congrArg SendRun.sent same
    exact views
  have connected : left.link.connected = right.link.connected := by
    have views := congrArg LinkedSocket.connected links
    exact views
  cases action with
  | send message =>
      simp only [sendStep, sent, connected]
      apply map_bind_congr
      · exact (LinkedSocket.blind_send quiet message.bytes).congr links
      · intro first second views
        exact congrArg (fun link => Except.ok
          (({ link, sent := right.sent ++
            if right.link.connected then message.bytes else [] } :
              SendRun Context))) views
  | sendBuffer buf =>
      simp only [sendStep, sent, connected]
      apply map_bind_congr
      · rw [LinkedSocket.blind_sendBuffer quiet, links,
          ← LinkedSocket.blind_sendBuffer quiet]
      · intro first second views
        exact congrArg (fun link => Except.ok
          (({ link, sent := right.sent ++
            if right.link.connected then buf.content else [] } :
              SendRun Context))) (congrArg Prod.fst views)
  | shutdown =>
      have shut : left.link.shutdown.unmarked =
          right.link.shutdown.unmarked := by
        rw [LinkedSocket.blind_shutdown, links, ← LinkedSocket.blind_shutdown]
      exact congrArg (fun link => Except.ok
        ({ link, sent := left.sent } : SendRun Context)) shut |>.trans (by
          rw [sent]
          rfl)
  | handleWrite =>
      simp only [sendStep]
      apply map_bind_congr
      · exact (LinkedSocket.blind_handleWrite quiet).congr links
      · intro first second views
        exact congrArg (fun link => Except.ok
          ({ link, sent := left.sent } : SendRun Context)) views |>.trans (by
            rw [sent]
            rfl)

end Muduo
