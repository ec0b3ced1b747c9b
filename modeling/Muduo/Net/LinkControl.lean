import Muduo.Net.LinkLifetime

/-!
# Where control goes in a link

`Continues` lists the frames that a frame leaves for later and `Enters` those that
a step puts on the stack otherwise.  Most frames are never left under others, so
they take their turn at once.
-/

namespace Muduo

open Library

namespace Frame

/-- The frame may lie under others. -/
def rests : Frame → Bool
  | eventHangup | eventInput | eventOutput | handleWriteEnd | scopeEnd
  | callback | sendRest _ _ | queueOutput _ => true
  | _ => false

/-- The frames that a frame leaves when it has had its turn. -/
inductive Continues : Frame → List Frame → Prop where
  | ends (frame : Frame) : Continues frame []
  | hangup : Continues .eventHangup [.handleClose]
  | input : Continues .eventInput [.handleRead]
  | output : Continues .eventOutput [.handleWrite]
  | endOfStream : Continues .handleRead [.handleClose]
  | received : Continues .handleRead [.callback]
  | written : Continues .handleWrite [.callback, .handleWriteEnd]
  | deferred : Continues .handleWriteEnd [.shutdownInLoop]
  | closed : Continues .handleClose [.delConnection]
  | deleted : Continues .delConnection [.scopeEnd]
  | completed (message : List Byte) (length : Nat) (sending : Sending) :
      Continues (.sendInLoop message) [.callback, .sendRest length sending]
  | direct (message : List Byte) (length : Nat) (sending : Sending) :
      Continues (.sendInLoop message) [.sendRest length sending]
  | highWater (length : Nat) (sending : Sending) :
      Continues (.sendRest length sending)
        [.callback, .queueOutput sending.remaining]
  | queued (length : Nat) (sending : Sending) :
      Continues (.sendRest length sending) [.queueOutput sending.remaining]
  | forced : Continues .forceCloseInLoop [.handleClose]

theorem Continues.rests {frame : Frame} {frames : List Frame}
    (continues : Continues frame frames) :
    ∀ pushed ∈ frames.tail, pushed.rests = true := by
  cases continues with
  | written | completed | highWater => simp [Frame.rests]
  | _ => simp

end Frame

namespace LinkLoop

open LinkedSocket

variable {loop next : LinkLoop} {frame : Frame}

theorem continues_callIf {condition : Bool} {pushed : Frame}
    (continues : Frame.Continues frame [pushed]) :
    ∃ frames, (loop.callIf condition pushed).stack = frames ++ loop.stack ∧
      Frame.Continues frame frames := by
  cases condition with
  | true => exact ⟨[pushed], rfl, continues⟩
  | false => exact ⟨[], rfl, .ends frame⟩

theorem continues_handleRead (ran : loop.handleRead = .ok next) :
    ∃ frames, next.stack = frames ++ loop.stack ∧
      Frame.Continues .handleRead frames := by
  cases readStep_of_handleRead ran with
  | failed _ => exact ⟨[], rfl, .ends _⟩
  | ended _ => exact ⟨[.handleClose], rfl, .endOfStream⟩
  | received _ _ => exact ⟨[.callback], rfl, .received⟩

theorem continues_handleWrite (ran : loop.handleWrite = .ok next) :
    ∃ frames, next.stack = frames ++ loop.stack ∧
      Frame.Continues .handleWrite frames := by
  cases writeStep_of_handleWrite ran with
  | idle => exact ⟨[], rfl, .ends _⟩
  | queued _ _ => exact ⟨[], rfl, .ends _⟩
  | emptied _ _ _ => exact ⟨[.callback, .handleWriteEnd], rfl, .written⟩

theorem continues_sendInLoop (loop : LinkLoop) (message : List Byte) :
    ∃ frames, (loop.sendInLoop message).stack = frames ++ loop.stack ∧
      Frame.Continues (.sendInLoop message) frames := by
  unfold sendInLoop
  split
  · exact ⟨[], rfl, .ends _⟩
  · simp only
    split
    · exact ⟨_, rfl, .completed message _ _⟩
    · exact ⟨_, rfl, .direct message _ _⟩

theorem continues_sendRest {length : Nat} {sending : Sending}
    (ran : loop.sendRest length sending = .ok next) :
    ∃ frames, next.stack = frames ++ loop.stack ∧
      Frame.Continues (.sendRest length sending) frames := by
  obtain ⟨_, _, rest⟩ := bind_eq_ok ran
  split at rest
  · split at rest
    · cases rest
      exact ⟨_, rfl, .highWater length sending⟩
    · cases rest
      exact ⟨_, rfl, .queued length sending⟩
  · cases rest
    exact ⟨[], rfl, .ends _⟩

/-- A turn of a frame leaves the frames that `Continues` lists. -/
theorem continues_of_run (ran : loop.run frame = .ok next) :
    ∃ frames, next.stack = frames ++ loop.stack ∧
      Frame.Continues frame frames := by
  cases frame with
  | prepare =>
      obtain ⟨link, _, same⟩ := bind_eq_ok ran
      cases same
      exact ⟨[], rfl, .ends _⟩
  | eventError =>
      cases ran
      exact ⟨[], rfl, .ends _⟩
  | eventHangup =>
      cases ran
      exact continues_callIf .hangup
  | eventInput =>
      cases ran
      exact continues_callIf .input
  | eventOutput =>
      cases ran
      exact continues_callIf .output
  | handleRead => exact continues_handleRead ran
  | handleWrite => exact continues_handleWrite ran
  | handleWriteEnd =>
      cases ran
      exact continues_callIf .deferred
  | handleClose =>
      obtain ⟨link, _, same⟩ := bind_eq_ok ran
      cases same
      exact ⟨[.delConnection], rfl, .closed⟩
  | delConnection =>
      cases ran
      exact ⟨[.scopeEnd], rfl, .deleted⟩
  | scopeEnd =>
      cases ran
      exact ⟨[], rfl, .ends _⟩
  | callback =>
      cases ran
      exact ⟨[], rfl, .ends _⟩
  | sendInLoop message =>
      cases ran
      exact continues_sendInLoop loop message
  | sendRest length sending => exact continues_sendRest ran
  | queueOutput remaining =>
      obtain ⟨link, _, same⟩ := bind_eq_ok ran
      cases same
      exact ⟨[], rfl, .ends _⟩
  | shutdownInLoop =>
      cases ran
      exact ⟨[], rfl, .ends _⟩
  | forceCloseInLoop =>
      cases ran
      exact continues_callIf .forced

theorem exec_eq (enabled : linkMachine.enabled loop .exec)
    (stepped : linkMachine.step loop .exec = .ok next) :
    ∃ frame stack, loop.stack = frame :: stack ∧
      run { loop with stack } frame = .ok next := by
  have nonempty : loop.stack.isEmpty = false := enabled
  have ran : loop.exec = .ok next := stepped
  cases top : loop.stack with
  | nil => simp [top] at nonempty
  | cons frame stack =>
      refine ⟨frame, stack, rfl, ?_⟩
      simp only [exec, top] at ran
      split at ran
      · cases ran
      · exact ran

/-- The frames that a step other than a turn of a frame puts on the stack. -/
inductive Enters (loop : LinkLoop) : LinkAction → List Frame → Prop where
  | nothing (action : LinkAction) : Enters loop action []
  | handleEvent :
      loop.stack = [] →
      Enters loop .handleEvent
        [.eventError, .eventHangup, .eventInput, .eventOutput]
  | startFunctor {ran remaining : List LinkFunctor} {functor : LinkFunctor} :
      loop.stack = [] →
      loop.functors = some (ran, functor :: remaining) →
      Enters loop .startFunctor [functor.frame]
  | enter :
      loop.stack = [] →
      Enters loop .enter [.callback]
  | send {message : List Byte} :
      loop.inCallback = true →
      Enters loop (.send true message) [.sendInLoop message]
  | shutdown :
      loop.inCallback = true →
      Enters loop (.shutdown true) [.shutdownInLoop]

theorem enters_of_step {action : LinkAction}
    (enabled : linkMachine.enabled loop action)
    (stepped : linkMachine.step loop action = .ok next)
    (other : action ≠ .exec) :
    ∃ frames, next.stack = frames ++ loop.stack ∧
      Enters loop action frames := by
  cases action with
  | exec => exact (other rfl).elim
  | handleEvent =>
      obtain ⟨empty, _⟩ := enabled
      cases stepped
      exact ⟨_, rfl, .handleEvent (List.isEmpty_iff.mp empty)⟩
  | startFunctor =>
      have step := linkStep_of_step enabled stepped
      cases step with
      | startFunctor empty functors =>
          exact ⟨_, rfl, .startFunctor empty functors⟩
  | enter =>
      obtain ⟨empty, _⟩ := enabled
      cases stepped
      exact ⟨_, rfl, .enter (List.isEmpty_iff.mp empty)⟩
  | send inLoop message =>
      cases stepped
      unfold send
      split
      · cases inLoop with
        | true => exact ⟨_, rfl, .send enabled⟩
        | false => exact ⟨[], rfl, .nothing _⟩
      · exact ⟨[], rfl, .nothing _⟩
  | shutdown inLoop =>
      cases stepped
      unfold shutdown
      split
      · cases inLoop with
        | true => exact ⟨_, rfl, .shutdown enabled⟩
        | false => exact ⟨[], rfl, .nothing _⟩
      · exact ⟨[], rfl, .nothing _⟩
  | forceClose inLoop =>
      cases stepped
      unfold forceClose
      split
      · exact ⟨[], rfl, .nothing _⟩
      · exact ⟨[], rfl, .nothing _⟩
  | poll | swapFunctors | destroyFunctors | copy | release =>
      cases stepped
      exact ⟨[], rfl, .nothing _⟩

/-- The functors that calls of users queue. -/
inductive Queues (loop : LinkLoop) : LinkAction → LinkFunctor → Prop where
  | send {message : List Byte} :
      loop.link.state = .kConnected →
      Queues loop (.send false message) (.sendInLoop message)
  | shutdown :
      loop.link.state = .kConnected →
      Queues loop (.shutdown false) .shutdownInLoop
  | forceClose {inLoop : Bool} :
      loop.link.state = .kConnected →
      Queues loop (.forceClose inLoop) .forceCloseInLoop

/-- The functors that have still to start are queued at their end and start from
their front. -/
inductive WaitingStep (loop : LinkLoop) (action : LinkAction)
    (next : LinkLoop) : Prop where
  | stays :
      next.waiting = loop.waiting →
      action ≠ .startFunctor →
      WaitingStep loop action next
  | queues {functor : LinkFunctor} :
      Queues loop action functor →
      next.waiting = loop.waiting ++ [functor] →
      WaitingStep loop action next
  | starts {functor : LinkFunctor} :
      action = .startFunctor →
      loop.stack = [] →
      next.stack = [functor.frame] →
      loop.waiting = functor :: next.waiting →
      WaitingStep loop action next

theorem waiting_queueInLoop (loop : LinkLoop) (functor : LinkFunctor) :
    (loop.queueInLoop functor).waiting = loop.waiting ++ [functor] := by
  simp only [waiting, queueInLoop]
  cases loop.functors with
  | none => rfl
  | some both => simp only [List.append_assoc]

theorem waiting_of_run (ran : loop.run frame = .ok next) :
    next.waiting = loop.waiting := by
  by_cases uses : frame.usesLink = true
  · cases turn_of_run uses ran with
    | _ => rfl
  · rw [Bool.not_eq_true] at uses
    rw [run_of_unused uses] at ran
    cases ran
    rfl

theorem waitingStep_of_step {action : LinkAction}
    (enabled : linkMachine.enabled loop action)
    (stepped : linkMachine.step loop action = .ok next) :
    WaitingStep loop action next := by
  cases action with
  | exec =>
      obtain ⟨frame, stack, top, ran⟩ := exec_eq enabled stepped
      have same := waiting_of_run ran
      exact .stays same (by simp)
  | swapFunctors =>
      cases linkStep_of_step enabled stepped with
      | swapFunctors empty none =>
          refine .stays ?_ (by simp)
          simp [waiting, swapFunctors, none]
  | startFunctor =>
      cases linkStep_of_step enabled stepped with
      | @startFunctor ran remaining functor empty functors =>
          refine @WaitingStep.starts _ _ _ functor rfl empty ?_ ?_
          · simp only [call, empty]
            rfl
          · simp [waiting, functors, call]
  | destroyFunctors =>
      cases linkStep_of_step enabled stepped with
      | destroyFunctors empty functors =>
          refine .stays ?_ (by simp)
          simp [waiting, functors]
  | send inLoop message =>
      cases stepped
      unfold send
      split
      · next connected =>
          cases inLoop with
          | true => exact .stays rfl (by simp)
          | false =>
              exact .queues (.send connected) (waiting_queueInLoop _ _)
      · exact .stays rfl (by simp)
  | shutdown inLoop =>
      cases stepped
      unfold shutdown
      split
      · next connected =>
          cases inLoop with
          | true => exact .stays rfl (by simp)
          | false =>
              exact .queues (.shutdown connected) (waiting_queueInLoop _ _)
      · exact .stays rfl (by simp)
  | forceClose inLoop =>
      cases stepped
      unfold forceClose
      split
      · next connected =>
          exact .queues (.forceClose connected) (waiting_queueInLoop _ _)
      · exact .stays rfl (by simp)
  | poll | handleEvent | enter | copy | release =>
      cases stepped
      exact .stays rfl (by simp)

/-- Under the frame at the top there are only frames that may rest. -/
def Rested (loop : LinkLoop) : Prop :=
  ∀ frame ∈ loop.stack.tail, frame.rests = true

theorem Rested.of_top (rested : loop.Rested) {stack : List Frame}
    (top : loop.stack = frame :: stack) :
    ∀ under ∈ stack, under.rests = true := by
  intro under member
  apply rested
  rw [top]
  exact member

theorem Rested.of_callback (rested : loop.Rested)
    (callback : loop.inCallback = true) :
    ∀ under ∈ loop.stack, under.rests = true := by
  cases top : loop.stack with
  | nil => simp
  | cons frame stack =>
      have calls : frame.isCallback = true := by
        simpa [inCallback, top] using callback
      intro under member
      rcases List.mem_cons.mp member with rfl | inside
      · cases under with
        | callback => rfl
        | _ => cases calls
      · exact rested.of_top top under inside

theorem rested_of_append {frames stack : List Frame}
    (pushed : ∀ frame ∈ frames.tail, frame.rests = true)
    (under : ∀ frame ∈ stack, frame.rests = true)
    (becomes : next.stack = frames ++ stack) : next.Rested := by
  intro frame member
  rw [becomes] at member
  cases frames with
  | nil => exact under frame (List.mem_of_mem_tail member)
  | cons first frames =>
      rcases List.mem_append.mp member with new | old
      · exact pushed frame new
      · exact under frame old

theorem Rested.step {action : LinkAction} (rested : loop.Rested)
    (enabled : linkMachine.enabled loop action)
    (stepped : linkMachine.step loop action = .ok next) : next.Rested := by
  by_cases turn : action = .exec
  · subst turn
    obtain ⟨frame, stack, top, ran⟩ := exec_eq enabled stepped
    obtain ⟨frames, becomes, continues⟩ := continues_of_run ran
    exact rested_of_append continues.rests (rested.of_top top) becomes
  · obtain ⟨frames, becomes, enters⟩ := enters_of_step enabled stepped turn
    cases enters with
    | nothing =>
        intro frame member
        rw [becomes] at member
        exact rested frame member
    | handleEvent empty =>
        apply rested_of_append ?_ ?_ becomes
        · simp [Frame.rests]
        · simp [empty]
    | startFunctor empty functors =>
        apply rested_of_append ?_ ?_ becomes
        · simp
        · simp [empty]
    | enter empty =>
        apply rested_of_append ?_ ?_ becomes
        · simp
        · simp [empty]
    | send callback =>
        apply rested_of_append ?_ (rested.of_callback callback) becomes
        simp
    | shutdown callback =>
        apply rested_of_append ?_ (rested.of_callback callback) becomes
        simp

theorem newConnection_rested (link : LinkedSocket Unit)
    (reads : List (Except Errno (List Byte))) (inLoop : Bool) :
    (newConnection link reads inLoop).Rested := by
  cases inLoop with
  | true => simp [Rested, newConnection, Frame.rests]
  | false => simp [Rested, newConnection]

end LinkLoop

end Muduo
