import Muduo.Net.LinkLoop

/-!
# What a step of a link can do

`Turn` lists what one turn of a frame does to the link and to the stack, and
`LinkStep` what a step of the machine does; facts about runs are derived from
these and not from the functions.
-/

namespace Muduo

open Library

namespace FdHandler

theorem updateInPoll_mod_added {handler next : FdHandler}
    (updated : handler.updateInPoll .ModEvent = .ok next) :
    handler.stateInPoll = .Added := by
  by_contra other
  simp [updateInPoll, other] at updated

end FdHandler

namespace LinkedSocket

/-- The state is the same, and so is the registration of a link that is not
registered. -/
structure Undisturbed (link next : LinkedSocket Unit) : Prop where
  state_eq : next.state = link.state
  poll_eq : next.handler.stateInPoll = link.handler.stateInPoll ∨
    link.handler.stateInPoll = .Added

variable {link next : LinkedSocket Unit}

theorem undisturbed_of_eq (state : next.state = link.state)
    (handler : next.handler = link.handler) : Undisturbed link next :=
  ⟨state, .inl (by rw [handler])⟩

theorem undisturbed_updateInPoll
    (updated : link.updateInPoll .ModEvent = .ok next) :
    Undisturbed link next := by
  obtain ⟨handler, changed, same⟩ := bind_eq_ok updated
  cases same
  exact ⟨rfl, .inr (FdHandler.updateInPoll_mod_added changed)⟩

theorem undisturbed_queueOutput {remaining : List Byte}
    (queued : link.queueOutput remaining = .ok next) :
    Undisturbed link next := by
  obtain ⟨outputBuffer, _, rest⟩ := bind_eq_ok queued
  simp only at rest
  split at rest
  · cases rest
    exact undisturbed_of_eq rfl rfl
  · obtain ⟨state, poll⟩ := undisturbed_updateInPoll rest
    exact ⟨state, poll⟩

theorem undisturbed_writeDirectly (link : LinkedSocket Unit)
    (message : List Byte) :
    Undisturbed link (link.writeDirectly message).1 := by
  unfold writeDirectly
  split
  · simp only
    split <;> exact undisturbed_of_eq rfl rfl
  · exact undisturbed_of_eq rfl rfl

theorem undisturbed_writeQueued {emptied : Bool}
    (written : link.writeQueued = .ok (next, emptied)) :
    Undisturbed link next := by
  unfold writeQueued at written
  simp only at written
  split at written
  · cases written
    exact undisturbed_of_eq rfl rfl
  · split at written
    · obtain ⟨outputBuffer, _, rest⟩ := bind_eq_ok written
      cases rest
      exact undisturbed_of_eq rfl rfl
    · cases written
      exact undisturbed_of_eq rfl rfl

theorem startClose_eq (closed : link.startClose = .ok next) :
    link.handler.stateInPoll = .Added ∧ next.state = .kDisconnected ∧
      next.handler.stateInPoll = .Deleted := by
  obtain ⟨_, _, updated⟩ := bind_eq_ok closed
  obtain ⟨handler, changed, same⟩ := bind_eq_ok updated
  have before := FdHandler.updateInPoll_mod_added changed
  have added : link.handler.stateInPoll = .Added := before
  obtain ⟨_, _, registered⟩ := bind_eq_ok changed
  cases registered
  cases same
  refine ⟨added, rfl, ?_⟩
  simp [FdHandler.updateHandler, setState, disableAll, FdHandler.disableAll,
    FdHandler.isNoneEvent, added]

theorem prepare_eq (prepared : link.prepare = .ok next) :
    next.state = link.state ∧ next.handler.stateInPoll = .Added := by
  obtain ⟨handler, changed, same⟩ := bind_eq_ok prepared
  obtain ⟨_, checked, registered⟩ := bind_eq_ok changed
  cases registered
  cases same
  refine ⟨rfl, ?_⟩
  have fresh : link.enableReading.handler.stateInPoll ≠ .Added := by
    intro added
    simp [assertThat, added] at checked
  unfold FdHandler.updateHandler
  split
  · rfl
  · rfl
  · next added => exact (fresh added).elim

end LinkedSocket

namespace Frame

def isPrepare : Frame → Bool
  | prepare => true
  | _ => false

/-- The frame may come to close the link. -/
def closes : Frame → Bool
  | eventHangup | eventInput | handleRead | handleClose | delConnection
  | forceCloseInLoop => true
  | _ => false

def isDelConnection : Frame → Bool
  | delConnection => true
  | _ => false

end Frame

namespace LinkLoop

open LinkedSocket

variable {loop next : LinkLoop} {frame : Frame}

/-- Frames that a frame may put on the stack: they do not register the link, nor
close it unless the frame does. -/
def follows (frame : Frame) (frames : List Frame) : Bool :=
  frames.all fun pushed => !pushed.isPrepare && !pushed.isDelConnection &&
    (!pushed.closes || frame.closes)

theorem of_follows {frames : List Frame} {pushed : Frame}
    (all : follows frame frames = true) (inside : pushed ∈ frames) :
    pushed.isPrepare = false ∧ pushed.isDelConnection = false ∧
      (pushed.closes = true → frame.closes = true) := by
  have holds := List.all_eq_true.mp all pushed inside
  simp only [Bool.and_eq_true, Bool.not_eq_true', Bool.or_eq_true] at holds
  obtain ⟨⟨fresh, stays⟩, calm⟩ := holds
  refine ⟨fresh, stays, ?_⟩
  intro closes
  rcases calm with quiet | loud
  · cases quiet.symm.trans closes
  · exact loud

/-- What one turn of a frame does. -/
inductive Turn (loop : LinkLoop) (frame : Frame) : LinkLoop → Prop where
  | goes {link : LinkedSocket Unit}
      {reads : List (Except Errno (List Byte))} {frames : List Frame} :
      Undisturbed loop.link link →
      follows frame frames = true →
      frame.isDelConnection = false →
      Turn loop frame ({ loop with link, reads }.call frames)
  | prepare {link : LinkedSocket Unit} :
      frame = .prepare →
      loop.link.prepare = .ok link →
      Turn loop frame (loop.setLink link)
  | handleClose {link : LinkedSocket Unit} :
      frame = .handleClose →
      loop.link.startClose = .ok link →
      Turn loop frame ((loop.setLink link).call [.delConnection])
  | delConnection :
      frame = .delConnection →
      Turn loop frame ({ loop with inMap := false }.call [.scopeEnd])

theorem undisturbed_refl (link : LinkedSocket Unit) :
    Undisturbed link link :=
  undisturbed_of_eq rfl rfl

theorem Turn.moves {link : LinkedSocket Unit}
    (undisturbed : Undisturbed loop.link link)
    (other : frame.isDelConnection = false) :
    Turn loop frame (loop.setLink link) :=
  @Turn.goes loop frame link loop.reads [] undisturbed rfl other

theorem Turn.calls {link : LinkedSocket Unit} {frames : List Frame}
    (undisturbed : Undisturbed loop.link link)
    (allowed : follows frame frames = true)
    (other : frame.isDelConnection = false) :
    Turn loop frame ((loop.setLink link).call frames) :=
  @Turn.goes loop frame link loop.reads frames undisturbed allowed other

theorem Turn.callsIf {condition : Bool} {pushed : Frame}
    (allowed : follows frame [pushed] = true)
    (other : frame.isDelConnection = false) :
    Turn loop frame (loop.callIf condition pushed) := by
  unfold callIf
  split
  · exact Turn.calls (undisturbed_refl _) allowed other
  · exact Turn.moves (undisturbed_refl _) other

/-- The link with what one read leaves of the input and of the answers. -/
def afterRead (loop : LinkLoop) (inputBuffer : Buffer) : LinkLoop :=
  { loop with
    link := { loop.link with inputBuffer }
    reads := (nextRead loop.reads).2 }

/-- How `handleRead` goes, by the answer of the kernel. -/
inductive ReadStep (loop : LinkLoop) : LinkLoop → Prop where
  | failed {inputBuffer : Buffer} {errno : Errno} :
      (nextRead loop.reads).1 = .error errno →
      ReadStep loop (loop.afterRead inputBuffer)
  | ended {inputBuffer : Buffer} :
      (nextRead loop.reads).1 = .ok [] →
      ReadStep loop ((loop.afterRead inputBuffer).call [.handleClose])
  | received {inputBuffer : Buffer} {data : List Byte} :
      (nextRead loop.reads).1 = .ok data → data ≠ [] →
      ReadStep loop ((loop.afterRead inputBuffer).call [.callback])

theorem readStep_of_handleRead (ran : loop.handleRead = .ok next) :
    ReadStep loop next := by
  cases answer : nextRead loop.reads with
  | mk outcome reads =>
      have first : (nextRead loop.reads).1 = outcome := by rw [answer]
      simp only [handleRead, answer] at ran
      obtain ⟨inputBuffer, _, rest⟩ := bind_eq_ok ran
      have after : loop.afterRead inputBuffer =
          { loop with link := { loop.link with inputBuffer }, reads } := by
        rw [afterRead, answer]
      simp only [← after] at rest
      cases outcome with
      | error errno =>
          cases rest
          exact .failed first
      | ok data =>
          simp only at rest
          split at rest
          · next ended =>
              cases rest
              exact .ended (first.trans (congrArg Except.ok ended))
          · next more =>
              cases rest
              exact .received first more

/-- How `handleWrite` goes. -/
inductive WriteStep (loop : LinkLoop) : LinkLoop → Prop where
  | idle : WriteStep loop loop
  | queued {link : LinkedSocket Unit} :
      loop.link.isWriting = true →
      loop.link.writeQueued = .ok (link, false) →
      WriteStep loop (loop.setLink link)
  | emptied {link registered : LinkedSocket Unit} :
      loop.link.isWriting = true →
      loop.link.writeQueued = .ok (link, true) →
      link.disableWriting.updateInPoll .ModEvent = .ok registered →
      WriteStep loop ((loop.setLink (registered.record .writeComplete)).call
        [.callback, .handleWriteEnd])

theorem writeStep_of_handleWrite (ran : loop.handleWrite = .ok next) :
    WriteStep loop next := by
  unfold handleWrite at ran
  split at ran
  · next writing =>
      obtain ⟨⟨link, emptied⟩, written, rest⟩ := bind_eq_ok ran
      cases emptied with
      | false =>
          cases rest
          exact .queued writing written
      | true =>
          obtain ⟨registered, updated, same⟩ := bind_eq_ok rest
          cases same
          exact .emptied writing written updated
  · cases ran
    exact .idle

theorem turn_handleRead (ran : loop.handleRead = .ok next) :
    Turn loop .handleRead next := by
  cases readStep_of_handleRead ran with
  | failed _ =>
      exact @Turn.goes loop .handleRead _ _ [] (undisturbed_of_eq rfl rfl) rfl
        rfl
  | ended _ => exact .goes (undisturbed_of_eq rfl rfl) rfl rfl
  | received _ _ => exact .goes (undisturbed_of_eq rfl rfl) rfl rfl

theorem turn_handleWrite (ran : loop.handleWrite = .ok next) :
    Turn loop .handleWrite next := by
  cases writeStep_of_handleWrite ran with
  | idle => exact Turn.moves (undisturbed_refl _) rfl
  | queued _ written => exact Turn.moves (undisturbed_writeQueued written) rfl
  | @emptied link registered _ written updated =>
      have undisturbed := undisturbed_writeQueued written
      have changed : Undisturbed link.disableWriting registered :=
        undisturbed_updateInPoll updated
      have total : Undisturbed loop.link
          (registered.record .writeComplete) := by
        refine ⟨changed.state_eq.trans undisturbed.state_eq, ?_⟩
        rcases undisturbed.poll_eq with same | added
        · exact changed.poll_eq.imp (fun poll => poll.trans same)
            fun added => same.symm.trans added
        · exact .inr added
      exact Turn.calls total rfl rfl

theorem turn_sendInLoop (message : List Byte) :
    Turn loop (.sendInLoop message) (loop.sendInLoop message) := by
  have undisturbed := undisturbed_writeDirectly loop.link message
  unfold sendInLoop
  split
  · exact Turn.moves (undisturbed_refl _) rfl
  · simp only
    split
    · exact Turn.calls ⟨undisturbed.state_eq, undisturbed.poll_eq⟩
        rfl rfl
    · exact Turn.calls undisturbed rfl rfl

theorem turn_sendRest {length : Nat} {sending : Sending}
    (ran : loop.sendRest length sending = .ok next) :
    Turn loop (.sendRest length sending) next := by
  obtain ⟨_, _, rest⟩ := bind_eq_ok ran
  split at rest
  · split at rest
    · cases rest
      exact Turn.calls (undisturbed_of_eq rfl rfl) rfl rfl
    · cases rest
      exact Turn.calls (undisturbed_refl _) rfl rfl
  · cases rest
    exact Turn.moves (undisturbed_refl _) rfl

/-- A turn of a frame is one of those that `Turn` lists. -/
theorem turn_of_run (uses : frame.usesLink = true)
    (ran : loop.run frame = .ok next) : Turn loop frame next := by
  cases frame with
  | prepare =>
      obtain ⟨link, prepared, same⟩ := bind_eq_ok ran
      cases same
      exact .prepare rfl prepared
  | eventError =>
      cases ran
      exact Turn.moves (undisturbed_refl _) rfl
  | eventHangup =>
      cases ran
      exact Turn.callsIf rfl rfl
  | eventInput =>
      cases ran
      exact Turn.callsIf rfl rfl
  | eventOutput =>
      cases ran
      exact Turn.callsIf rfl rfl
  | handleRead => exact turn_handleRead ran
  | handleWrite => exact turn_handleWrite ran
  | handleWriteEnd =>
      cases ran
      exact Turn.callsIf rfl rfl
  | handleClose =>
      obtain ⟨link, closed, same⟩ := bind_eq_ok ran
      cases same
      exact .handleClose rfl closed
  | delConnection =>
      cases ran
      exact .delConnection rfl
  | scopeEnd => cases uses
  | callback => cases uses
  | sendInLoop message =>
      cases ran
      exact turn_sendInLoop message
  | sendRest length sending => exact turn_sendRest ran
  | queueOutput remaining =>
      obtain ⟨link, queued, same⟩ := bind_eq_ok ran
      cases same
      exact Turn.moves (undisturbed_queueOutput queued) rfl
  | shutdownInLoop =>
      cases ran
      apply Turn.moves ?_ rfl
      unfold LinkedSocket.shutdownInLoop
      split <;> exact undisturbed_of_eq rfl rfl
  | forceCloseInLoop =>
      cases ran
      exact Turn.callsIf rfl rfl

/-- A call changes the state of an open link, and does not close it. -/
structure StaysOpen (link next : LinkedSocket Unit) : Prop where
  handler_eq : next.handler = link.handler
  before : link.state ≠ .kDisconnected
  after : next.state ≠ .kDisconnected

/-- What a call of a user does. -/
inductive UserCall (loop : LinkLoop) : LinkLoop → Prop where
  | ignored : UserCall loop loop
  | called {link : LinkedSocket Unit} {frame : Frame} :
      loop.inCallback = true →
      StaysOpen loop.link link →
      frame.isPrepare = false →
      frame.closes = false →
      UserCall loop ((loop.setLink link).call [frame])
  | queued {link : LinkedSocket Unit} {functor : LinkFunctor} :
      StaysOpen loop.link link →
      functor ≠ .prepare →
      UserCall loop ((loop.setLink link).queueInLoop functor)

/-- What a step can do to a link and the copies of its pointer. -/
inductive LinkStep (loop : LinkLoop) : LinkAction → LinkLoop → Prop where
  | poll {revents : EventMask} :
      loop.stack = [] →
      loop.functors = none →
      loop.link.handler.stateInPoll = .Added →
      LinkStep loop (.poll revents) (loop.poll revents)
  | handleEvent :
      loop.stack = [] →
      loop.active = true →
      LinkStep loop .handleEvent loop.handleEvent
  | goesOn {frame : Frame} {stack : List Frame} {next : LinkLoop} :
      loop.stack = frame :: stack →
      frame.usesLink = true →
      Turn { loop with stack } frame next →
      LinkStep loop .exec next
  | ends {frame : Frame} {stack : List Frame} :
      loop.stack = frame :: stack →
      frame.usesLink = false →
      LinkStep loop .exec { loop with stack }
  | swapFunctors :
      loop.stack = [] →
      loop.functors = none →
      loop.active = false →
      LinkStep loop .swapFunctors loop.swapFunctors
  | startFunctor {ran remaining : List LinkFunctor}
      {functor : LinkFunctor} :
      loop.stack = [] →
      loop.functors = some (ran, functor :: remaining) →
      LinkStep loop .startFunctor
        ({ loop with functors := some (ran ++ [functor], remaining) }.call
          [functor.frame])
  | destroyFunctors {ran : List LinkFunctor} :
      loop.stack = [] →
      loop.functors = some (ran, []) →
      LinkStep loop .destroyFunctors { loop with functors := none }
  | enter :
      loop.stack = [] →
      LinkStep loop .enter (loop.call [.callback])
  | copy : LinkStep loop .copy { loop with users := loop.users + 1 }
  | release :
      0 < loop.users →
      LinkStep loop .release { loop with users := loop.users - 1 }
  | send {inLoop : Bool} {message : List Byte} {next : LinkLoop} :
      UserCall loop next →
      LinkStep loop (.send inLoop message) next
  | shutdown {inLoop : Bool} {next : LinkLoop} :
      UserCall loop next →
      LinkStep loop (.shutdown inLoop) next
  | forceClose {inLoop : Bool} {next : LinkLoop} :
      UserCall loop next →
      LinkStep loop (.forceClose inLoop) next

theorem userCall_send {inLoop : Bool} (mayCall : loop.MayCall inLoop)
    (message : List Byte) : UserCall loop (loop.send inLoop message) := by
  unfold send
  split
  · next connected =>
      have stays : StaysOpen loop.link loop.link :=
        ⟨rfl, by simp [connected], by simp [connected]⟩
      cases inLoop with
      | true => exact .called mayCall stays rfl rfl
      | false => exact .queued stays (by simp)
  · exact .ignored

theorem userCall_shutdown {inLoop : Bool} (mayCall : loop.MayCall inLoop) :
    UserCall loop (loop.shutdown inLoop) := by
  unfold shutdown
  split
  · next connected =>
      have stays : StaysOpen loop.link
          (loop.link.setState .kDisconnecting) :=
        ⟨rfl, by simp [connected], by simp [setState]⟩
      cases inLoop with
      | true => exact .called mayCall stays rfl rfl
      | false => exact .queued stays (by simp)
  · exact .ignored

theorem userCall_forceClose : UserCall loop loop.forceClose := by
  unfold forceClose
  split
  · next connected =>
      have stays : StaysOpen loop.link
          (loop.link.setState .kDisconnecting) :=
        ⟨rfl, by simp [connected], by simp [setState]⟩
      exact .queued stays (by simp)
  · exact .ignored

theorem run_of_unused (unused : frame.usesLink = false) :
    loop.run frame = .ok loop := by
  cases frame with
  | scopeEnd => rfl
  | callback => rfl
  | _ => cases unused

/-- A step of the machine is one of those that `LinkStep` lists. -/
theorem linkStep_of_step {action : LinkAction}
    (enabled : linkMachine.enabled loop action)
    (stepped : linkMachine.step loop action = .ok next) :
    LinkStep loop action next := by
  cases action with
  | poll revents =>
      obtain ⟨empty, none, _, added⟩ := enabled
      cases stepped
      exact .poll (List.isEmpty_iff.mp empty) (Option.isNone_iff_eq_none.mp none)
        added
  | handleEvent =>
      obtain ⟨empty, active⟩ := enabled
      cases stepped
      exact .handleEvent (List.isEmpty_iff.mp empty) active
  | exec =>
      have nonempty : loop.stack.isEmpty = false := enabled
      have ran : loop.exec = .ok next := stepped
      cases stack : loop.stack with
      | nil => simp [stack] at nonempty
      | cons frame rest =>
          simp only [exec, stack] at ran
          split at ran
          · cases ran
          · by_cases uses : frame.usesLink = true
            · exact .goesOn stack uses (turn_of_run uses ran)
            · rw [Bool.not_eq_true] at uses
              rw [run_of_unused uses] at ran
              cases ran
              exact .ends stack uses
  | swapFunctors =>
      obtain ⟨empty, none, idle⟩ := enabled
      cases stepped
      exact .swapFunctors (List.isEmpty_iff.mp empty)
        (Option.isNone_iff_eq_none.mp none) idle
  | startFunctor =>
      obtain ⟨empty, more⟩ := enabled
      cases stepped
      cases functors : loop.functors with
      | none => simp [hasFunctor, functors] at more
      | some both =>
          obtain ⟨ran, remaining⟩ := both
          cases remaining with
          | nil => simp [hasFunctor, functors] at more
          | cons functor remaining =>
              simp only [startFunctor, functors]
              exact .startFunctor (List.isEmpty_iff.mp empty) functors
  | destroyFunctors =>
      obtain ⟨empty, done⟩ := enabled
      cases stepped
      cases functors : loop.functors with
      | none => simp [functorsDone, functors] at done
      | some both =>
          obtain ⟨ran, remaining⟩ := both
          cases remaining with
          | nil => exact .destroyFunctors (List.isEmpty_iff.mp empty) functors
          | cons functor remaining => simp [functorsDone, functors] at done
  | enter =>
      obtain ⟨empty, _⟩ := enabled
      cases stepped
      exact .enter (List.isEmpty_iff.mp empty)
  | copy =>
      cases stepped
      exact .copy
  | release =>
      have positive : 0 < loop.users := enabled
      cases stepped
      exact .release positive
  | send inLoop message =>
      have mayCall : loop.MayCall inLoop := enabled
      cases stepped
      exact .send (userCall_send mayCall message)
  | shutdown inLoop =>
      have mayCall : loop.MayCall inLoop := enabled
      cases stepped
      exact .shutdown (userCall_shutdown mayCall)
  | forceClose inLoop =>
      cases stepped
      exact .forceClose userCall_forceClose

end LinkLoop

end Muduo
