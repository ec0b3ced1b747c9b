import Muduo.Net.LinkLoop
import Muduo.Net.SendRuns

/-!
# The frames are the functions

Where callbacks return at once, the frames of a link in its loop do together
what the function does that they are cut from.
-/

namespace Muduo

open Library

namespace LinkLoop

/-- The frames run to their end and leave this link. -/
def Performs (loop : LinkLoop) (frames : List Frame)
    (link : LinkedSocket Unit) : Prop :=
  ∃ count next, linkMachine.Run (loop.call frames)
      (List.replicate count .exec) next ∧
    next.link = link ∧ next.stack = loop.stack

variable {loop next : LinkLoop} {frame : Frame} {frames : List Frame}
  {link : LinkedSocket Unit}

theorem performs_nil (loop : LinkLoop) : loop.Performs [] loop.link :=
  ⟨0, loop, .refl, rfl, rfl⟩

theorem Performs.turn {pushed : List Frame} (kept : 0 < loop.users)
    (ran : (loop.call frames).run frame = .ok (next.call pushed))
    (stack : next.stack = loop.stack)
    (rest : next.Performs pushed link) :
    loop.Performs (frame :: frames) link := by
  obtain ⟨count, final, runs, same, back⟩ := rest
  refine ⟨count + 1, final, ?_, same, back.trans stack⟩
  rw [List.replicate_succ]
  have counted : (loop.call (frame :: frames)).refCount ≠ 0 := by
    have users : (loop.call (frame :: frames)).users = loop.users := rfl
    simp only [refCount]
    omega
  apply runs.head
  · rfl
  · have used : (loop.call (frame :: frames)).exec =
        (loop.call frames).run frame :=
      if_neg fun both => counted both.2
    exact used.trans ran

theorem Performs.callback (kept : 0 < loop.users)
    (rest : loop.Performs frames link) :
    loop.Performs (.callback :: frames) link :=
  rest.turn kept rfl rfl

theorem Performs.one {pushed : List Frame} (kept : 0 < loop.users)
    (ran : loop.run frame = .ok (next.call pushed))
    (stack : next.stack = loop.stack)
    (rest : next.Performs pushed link) : loop.Performs [frame] link :=
  @Performs.turn loop next frame [] link pushed kept ran stack rest

theorem performs_last (kept : 0 < loop.users)
    (ran : loop.run frame = .ok (loop.setLink link)) :
    loop.Performs [frame] link :=
  @Performs.one loop (loop.setLink link) frame link [] kept ran rfl
    (performs_nil _)

theorem performs_queueOutput {remaining : List Byte} (kept : 0 < loop.users)
    (queued : loop.link.queueOutput remaining = .ok link) :
    loop.Performs [.queueOutput remaining] link := by
  apply performs_last kept
  simp only [run, queued, ok_bind]
  rfl

theorem performs_sendRest {length : Nat} {sending : Sending}
    (kept : 0 < loop.users)
    (sent : loop.link.sendRest silentOwner length sending = .ok link) :
    loop.Performs [.sendRest length sending] link := by
  obtain ⟨_, checked, rest⟩ := bind_eq_ok sent
  have run_eq : loop.run (.sendRest length sending) =
      loop.sendRest length sending := rfl
  simp only [LinkLoop.sendRest, checked, ok_bind] at run_eq
  by_cases more : !sending.faultError ∧ 0 < sending.remaining.length
  · rw [if_pos more] at rest run_eq
    obtain ⟨reported, high, queued⟩ := bind_eq_ok rest
    by_cases reaches :
        loop.link.reachesHighWater sending.remaining.length = true
    · simp only [LinkedSocket.reportHighWater, if_pos reaches] at high
      obtain rfl := Except.ok.inj high
      rw [if_pos reaches] at run_eq
      apply Performs.one kept run_eq rfl
      apply Performs.callback
      · exact kept
      · exact performs_queueOutput kept queued
    · simp only [LinkedSocket.reportHighWater, if_neg reaches] at high
      obtain rfl := Except.ok.inj high
      rw [if_neg reaches] at run_eq
      apply Performs.one kept run_eq rfl
      exact performs_queueOutput kept queued
  · rw [if_neg more] at rest run_eq
    obtain rfl := Except.ok.inj rest
    exact performs_last kept run_eq

theorem performs_sendInLoop {message : List Byte} (kept : 0 < loop.users)
    (sent : loop.link.sendInLoop silentOwner message = .ok link) :
    loop.Performs [.sendInLoop message] link := by
  have run_eq : loop.run (.sendInLoop message) =
      .ok (loop.sendInLoop message) := rfl
  by_cases closed : loop.link.state = .kDisconnected
  · rw [LinkedSocket.sendInLoop, if_pos closed] at sent
    rw [LinkLoop.sendInLoop, if_pos closed] at run_eq
    obtain rfl := Except.ok.inj sent
    exact performs_last kept run_eq
  · simp only [LinkedSocket.sendInLoop, if_neg closed] at sent
    simp only [LinkLoop.sendInLoop, if_neg closed] at run_eq
    obtain ⟨reported, completed, rest⟩ := bind_eq_ok sent
    cases complete : (loop.link.writeDirectly message).2.completed with
    | true =>
        rw [complete] at completed
        rw [if_pos complete] at run_eq
        obtain rfl := Except.ok.inj completed
        apply Performs.one kept run_eq rfl
        apply Performs.callback
        · exact kept
        · exact performs_sendRest kept rest
    | false =>
        rw [complete] at completed
        rw [complete, if_neg Bool.false_ne_true] at run_eq
        obtain rfl := Except.ok.inj completed
        apply Performs.one kept run_eq rfl
        exact performs_sendRest kept rest

theorem performs_handleClose (kept : 0 < loop.users)
    (closed : loop.link.handleClose silentOwner = .ok link) :
    loop.Performs [.handleClose] link := by
  obtain ⟨started, closes, left⟩ := bind_eq_ok closed
  obtain rfl := Except.ok.inj left
  have run_eq : loop.run .handleClose =
      .ok ((loop.setLink started).call [.delConnection]) := by
    simp only [run, closes, ok_bind]
    rfl
  have erased : (loop.setLink started).run .delConnection =
      .ok ({ loop.setLink started with inMap := false }.call [.scopeEnd]) :=
    rfl
  have stillKept : 0 < (loop.setLink started).users := kept
  apply Performs.one kept run_eq rfl
  apply Performs.one stillKept erased rfl
  exact performs_last kept rfl

theorem performs_handleWriteEnd (kept : 0 < loop.users)
    (ended : (if loop.link.state = .kDisconnecting then
      Except.ok loop.link.shutdownInLoop else Except.ok loop.link) =
        (.ok link : Checked (LinkedSocket Unit))) :
    loop.Performs [.handleWriteEnd] link := by
  have run_eq : loop.run .handleWriteEnd = .ok (loop.callIf
      (loop.link.state = .kDisconnecting) .shutdownInLoop) := rfl
  by_cases closing : loop.link.state = .kDisconnecting
  · rw [if_pos closing] at ended
    obtain rfl := Except.ok.inj ended
    rw [callIf, if_pos (decide_eq_true closing)] at run_eq
    apply Performs.one kept run_eq rfl
    exact performs_last kept rfl
  · rw [if_neg closing] at ended
    obtain rfl := Except.ok.inj ended
    rw [callIf, if_neg (by simp [closing])] at run_eq
    exact performs_last kept run_eq

theorem performs_handleWrite (kept : 0 < loop.users)
    (written : loop.link.handleWrite silentOwner = .ok link) :
    loop.Performs [.handleWrite] link := by
  have run_eq : loop.run .handleWrite = loop.handleWrite := rfl
  by_cases writing : loop.link.isWriting = true
  · rw [LinkedSocket.handleWrite, if_pos writing] at written
    rw [LinkLoop.handleWrite, if_pos writing] at run_eq
    obtain ⟨⟨queued, emptied⟩, wrote, rest⟩ := bind_eq_ok written
    rw [wrote, ok_bind] at run_eq
    cases emptied with
    | false =>
        obtain rfl := Except.ok.inj rest
        exact performs_last kept run_eq
    | true =>
        simp only [if_true] at rest run_eq
        obtain ⟨updated, changed, rest⟩ := bind_eq_ok rest
        rw [changed, ok_bind] at run_eq
        obtain ⟨completed, reported, rest⟩ := bind_eq_ok rest
        obtain rfl := Except.ok.inj reported
        apply Performs.one kept run_eq rfl
        apply Performs.callback
        · exact kept
        · exact performs_handleWriteEnd kept rest
  · rw [LinkedSocket.handleWrite, if_neg writing] at written
    rw [LinkLoop.handleWrite, if_neg writing] at run_eq
    obtain rfl := Except.ok.inj written
    exact performs_last kept run_eq

theorem performs_handleRead (kept : 0 < loop.users) {receiveTime : Int}
    (received : loop.link.handleRead silentOwner (nextRead loop.reads).1
      receiveTime = .ok link) :
    loop.Performs [.handleRead] link := by
  obtain ⟨inputBuffer, read, rest⟩ := bind_eq_ok received
  have run_eq : loop.run .handleRead = loop.handleRead := rfl
  unfold LinkLoop.handleRead at run_eq
  generalize nextRead loop.reads = answer at read rest run_eq
  obtain ⟨outcome, reads⟩ := answer
  simp only at read rest run_eq
  rw [read, ok_bind] at run_eq
  cases outcome with
  | error errno =>
      obtain rfl := Except.ok.inj rest
      have ran : loop.run .handleRead = .ok ({ loop with
          link := { loop.link with inputBuffer }, reads }.call []) := run_eq
      apply Performs.one kept ran rfl
      exact performs_nil _
  | ok data =>
      simp only at rest run_eq
      by_cases ended : data = []
      · rw [if_pos ended] at rest run_eq
        apply Performs.one kept run_eq rfl
        exact performs_handleClose kept rest
      · rw [if_neg ended] at rest run_eq
        obtain rfl := Except.ok.inj rest
        apply Performs.one kept run_eq rfl
        apply Performs.callback
        · exact kept
        · exact performs_nil _

end LinkLoop

end Muduo
