import Muduo.Net.LinkCloses

/-!
# Forced closes

`forceClose` leaves the state `kConnected` when it queues its functor, and
`forceCloseInLoop` closes the link only where it finds that state.  So the functor
does nothing, and the link is closed afterwards exactly if its peer closes it.
-/

namespace Muduo

open Library

namespace LinkLoop

variable {loop next called : LinkLoop} {frame : Frame} {stack : List Frame}

/-- The step sees the peer closing. -/
def PeerCloses (loop : LinkLoop) (action : LinkAction) : Prop :=
  action = .exec ∧ loop.peerCloses = true

/-- `handleClose` is about to run, or has still to call the owner. -/
def insideClose (loop : LinkLoop) : Bool :=
  loop.atHandleClose || loop.stack.any Frame.isDelConnection

/-- The link is closed and not registered, and the owner heard of it in exactly one
of its calls. -/
structure ClosedOnce (calls : List (Option Unit)) (loop : LinkLoop) : Prop where
  state_eq : loop.link.state = .kDisconnected
  deleted : loop.link.handler.stateInPoll = .Deleted
  once : calls.length = 1

theorem atHandleClose_iff_of_enters {action : LinkAction}
    {frames : List Frame} (becomes : next.stack = frames ++ loop.stack)
    (enters : Enters loop action frames) :
    next.atHandleClose = true ↔ loop.atHandleClose = true := by
  constructor
  · exact atHandleClose_of_enters becomes enters
  · intro here
    have calls (callback : loop.inCallback = true) :
        next.atHandleClose = true := by
      obtain ⟨stack, top⟩ := List.head?_eq_some_iff.mp
        (atHandleClose_iff.mp here)
      simp [inCallback, top, Frame.isCallback] at callback
    have empties (empty : loop.stack = []) : next.atHandleClose = true := by
      rw [atHandleClose_iff, empty] at here
      cases here
    cases enters with
    | nothing => exact atHandleClose_iff.mpr (becomes ▸ atHandleClose_iff.mp here)
    | handleEvent empty => exact empties empty
    | startFunctor empty => exact empties empty
    | enter empty => exact empties empty
    | send callback => exact calls callback
    | shutdown callback => exact calls callback

/-- A link that no forced close can close comes to be closed only by its peer. -/
theorem Orderly.closing_step {action : LinkAction} (orderly : loop.Orderly)
    (left : loop.link.state ≠ .kConnected)
    (enabled : linkMachine.enabled loop action)
    (stepped : linkMachine.step loop action = .ok next) :
    (next.link.state = .kDisconnected ∨ next.atHandleClose = true) ↔
      (loop.link.state = .kDisconnected ∨ loop.atHandleClose = true) ∨
        loop.PeerCloses action := by
  by_cases turn : action = .exec
  · subst turn
    obtain ⟨frame, stack, top, ran⟩ := exec_eq enabled stepped
    by_cases closes : frame = .handleClose
    · subst closes
      obtain ⟨_, closed, _⟩ := run_handleClose ran
      have here : loop.atHandleClose = true := by
        rw [atHandleClose_iff, top]
        rfl
      exact iff_of_true (.inl closed) (.inl (.inr here))
    · have before : loop.atHandleClose ≠ true := by
        intro here
        rw [atHandleClose_iff, top] at here
        exact closes (Option.some.inj here)
      rw [state_of_run closes ran,
        atHandleClose_of_run top (orderly.rested.of_top top) ran]
      simp [left, before, PeerCloses]
  · obtain ⟨frames, becomes, enters⟩ := enters_of_step enabled stepped turn
    rw [closed_iff_of_step turn (linkStep_of_step enabled stepped),
      atHandleClose_iff_of_enters becomes enters]
    simp [PeerCloses, turn]

end LinkLoop

section Runs

variable {fd : Int} {highWaterMark : Nat} {kernel : Kernel}
variable {context : Option Unit}
variable {reads : List (Except Errno (List Byte))} {inLoop caller : Bool}
variable {actions later : List LinkAction} {loop called : LinkLoop}

/-- After a forced close the link is closed, or about to be, exactly if it was
about to be or the peer closes. -/
theorem forceClose_closing_iff (orderly : called.forceClose.Orderly)
    (connected : called.link.state = .kConnected)
    (after : linkMachine.Run called.forceClose later loop) :
    loop.Orderly ∧ loop.link.state ≠ .kConnected ∧
      ((loop.link.state = .kDisconnected ∨ loop.atHandleClose = true) ↔
        called.atHandleClose = true ∨
          linkMachine.Happens LinkLoop.PeerCloses called.forceClose later) := by
  induction after with
  | refl =>
      have state : called.forceClose.link.state = .kDisconnecting := by
        rw [LinkLoop.forceClose, if_pos connected]
        rfl
      have here : called.forceClose.atHandleClose = called.atHandleClose := by
        rw [LinkLoop.forceClose, if_pos connected]
        rfl
      refine ⟨orderly, by simp [state], ?_⟩
      rw [here]
      simp [state, Machine.not_happens_nil]
  | @step later loop next action before enabled stepped induction =>
      obtain ⟨orderly, left, closing⟩ := induction
      refine ⟨orderly.step enabled stepped,
        LinkLoop.not_connected_step left enabled stepped, ?_⟩
      rw [orderly.closing_step left enabled stepped, closing,
        before.happens_concat, or_assoc]

/-- A link that is forced closed while it is connected is, at every later point
outside `handleClose`, closed and reported exactly if its peer was being seen
closing or is seen closing before that point. -/
theorem forceClose_closes_iff
    (before : linkMachine.Run
      (.accepted fd highWaterMark kernel context reads inLoop)
      actions called)
    (calls : called.MayCall caller)
    (connected : called.link.state = .kConnected)
    (after : linkMachine.Run called.forceClose later loop)
    (outside : loop.insideClose = false) :
    loop.ClosedOnce (linkMachine.observed LinkLoop.delConnections
        (.accepted fd highWaterMark kernel context reads inLoop)
        (actions ++ .forceClose caller :: later)) ↔
      called.atHandleClose = true ∨
        linkMachine.Happens LinkLoop.PeerCloses called.forceClose later := by
  have whole : linkMachine.Run
      (.accepted fd highWaterMark kernel context reads inLoop)
      (actions ++ .forceClose caller :: later) loop :=
    before.append (after.head calls rfl)
  have forced : linkMachine.Run
      (.accepted fd highWaterMark kernel context reads inLoop)
      (actions ++ [.forceClose caller]) called.forceClose :=
    before.step calls rfl
  obtain ⟨orderly, _, closing⟩ := forceClose_closing_iff
    (accepted_run_orderly forced) connected after
  obtain ⟨away, settled⟩ := Bool.or_eq_false_iff.mp outside
  rw [← closing, away]
  constructor
  · intro closed
    exact .inl closed.state_eq
  · intro either
    have closed : loop.link.state = .kDisconnected := by
      simpa using either
    have count := delConnections_eq whole
    have none : loop.deleting = 0 := by
      apply List.countP_eq_zero.mpr
      intro frame member
      have all := List.any_eq_false.mp settled frame member
      exact all
    rw [none, LinkedSocket.disconnected, closed] at count
    exact ⟨closed, orderly.inv.deleted_of_closed closed, count⟩

/-- The peer closes before the functor runs: the link is closed once. -/
theorem forceClose_closes_iff_endOfStream :
    ∃ actions called later loop,
      linkMachine.Run (.accepted 5 65536 ⟨[], []⟩ none [.ok []] true)
        actions called ∧
      linkMachine.Run called.forceClose later loop ∧
      called.link.state = .kConnected ∧ loop.waiting.isEmpty = true ∧
      loop.ClosedOnce (linkMachine.observed LinkLoop.delConnections
        (.accepted 5 65536 ⟨[], []⟩ none [.ok []] true)
        (actions ++ .forceClose false :: later)) := by
  have found : (linkMachine.execute
      (.accepted 5 65536 ⟨[], []⟩ none [.ok []] true)
      [.exec, .exec, .exec, .copy, .poll POLLIN, .handleEvent, .exec, .exec,
        .exec]).any
      (fun called => called.link.state = .kConnected ∧
        0 < called.users ∧ called.forceClose.peerCloses = true ∧
        ((linkMachine.execute called.forceClose
          [.exec, .exec, .exec, .exec, .exec, .swapFunctors, .startFunctor,
            .exec, .destroyFunctors]).any
          fun loop => loop.insideClose = false ∧
            loop.waiting.isEmpty = true) = true) = true := by
    decide +kernel
  obtain ⟨called, before, accepted⟩ := Machine.run_of_execute found
  obtain ⟨connected, user, peer, executed⟩ := of_decide_eq_true accepted
  obtain ⟨loop, after, settled⟩ := Machine.run_of_execute executed
  obtain ⟨outside, empty⟩ := of_decide_eq_true settled
  have caller : called.MayCall false := user
  have closes := forceClose_closes_iff before caller connected after outside
  exact ⟨_, called, _, loop, before, after, connected, empty,
    closes.mpr (.inr ⟨[], .exec, _, called.forceClose, rfl, .refl, rfl,
      peer⟩)⟩

/-- Nobody else closes: after its functor has run the link still waits in the
poller, half open, and the owner has not heard of it. -/
theorem forceClose_ignored :
    ∃ actions called later loop,
      linkMachine.Run (.accepted 5 65536 ⟨[], []⟩ none [] true)
        actions called ∧
      called.MayCall false ∧ called.link.state = .kConnected ∧
      linkMachine.Run called.forceClose later loop ∧
      loop.stack.isEmpty = true ∧ loop.functors.isNone = true ∧
      loop.waiting.isEmpty = true ∧
      loop.link.state = .kDisconnecting ∧
      loop.link.handler.stateInPoll = .Added ∧
      linkMachine.observed LinkLoop.delConnections
        (.accepted 5 65536 ⟨[], []⟩ none [] true)
        (actions ++ .forceClose false :: later) = [] := by
  have found : (linkMachine.execute
      (.accepted 5 65536 ⟨[], []⟩ none [] true)
      [.exec, .exec, .exec, .copy]).any
      (fun called => called.MayCall false ∧
        called.link.state = .kConnected ∧
        ((linkMachine.execute called.forceClose
          [.swapFunctors, .startFunctor, .exec, .destroyFunctors]).any
          fun loop => loop.stack.isEmpty = true ∧
            loop.functors.isNone = true ∧ loop.waiting.isEmpty = true ∧
            loop.link.state = .kDisconnecting ∧
            loop.link.handler.stateInPoll = .Added ∧
            linkMachine.observed LinkLoop.delConnections
              (.accepted 5 65536 ⟨[], []⟩ none [] true)
              ([.exec, .exec, .exec, .copy] ++ .forceClose false ::
                [.swapFunctors, .startFunctor, .exec, .destroyFunctors]) =
              []) = true) = true := by
    decide +kernel
  obtain ⟨called, before, accepted⟩ := Machine.run_of_execute found
  obtain ⟨caller, connected, executed⟩ := of_decide_eq_true accepted
  obtain ⟨loop, after, settled⟩ := Machine.run_of_execute executed
  exact ⟨_, called, _, loop, before, caller, connected, after,
    of_decide_eq_true settled⟩

end Runs

end Muduo
