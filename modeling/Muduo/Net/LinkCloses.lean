import Muduo.Net.LinkControl

/-!
# How often a link is closed

`handleClose` is reached from the hang-up branch of `handleEvent`, from a read at
the end of the stream and from a forced close.  It asserts that the link is open,
and the link stays closed after it; so the owner hears of one close at most, and
the assertion fails only where a link that is closed is read to its end.
-/

namespace Muduo

open Library

namespace LinkLoop

open LinkedSocket

variable {loop next : LinkLoop} {frame : Frame} {stack : List Frame}

/-- `handleClose` is about to run. -/
def atHandleClose (loop : LinkLoop) : Bool :=
  match loop.stack with
  | .handleClose :: _ => true
  | _ => false

/-- The hang-up branch is about to close the link. -/
def hangsUp (loop : LinkLoop) : Bool :=
  match loop.stack with
  | .eventHangup :: _ =>
      loop.link.handler.revents.meets POLLHUP &&
        !loop.link.handler.revents.meets POLLIN
  | _ => false

/-- A read is about to find the end of the stream. -/
def endsStream (loop : LinkLoop) : Bool :=
  match loop.stack, (nextRead loop.reads).1 with
  | .handleRead :: _, .ok [] => true
  | _, _ => false

/-- The peer is about to be seen closing. -/
def peerCloses (loop : LinkLoop) : Bool :=
  loop.hangsUp || loop.endsStream

/-- The assertion of `handleClose`, where that function is about to run. -/
def AssertsOpen (loop : LinkLoop) : Prop :=
  loop.atHandleClose = true →
    loop.link.state = .kConnected ∨ loop.link.state = .kDisconnecting

/-- The step does not read a closed link to the end of its stream. -/
def ReadsOpen (loop : LinkLoop) (action : LinkAction) : Prop :=
  action = .exec → loop.endsStream = true →
    loop.link.state ≠ .kDisconnected

/-- The calls of the owner's `delConnection`, with the context that the link has
then. -/
def delConnections (loop : LinkLoop) : LinkAction → List (Option Unit)
  | .exec =>
      match loop.stack with
      | .delConnection :: _ => [loop.link.context]
      | _ => []
  | _ => []

theorem open_iff {state : StateE} :
    state = .kConnected ∨ state = .kDisconnecting ↔
      state ≠ .kDisconnected := by
  cases state <;> simp

theorem atHandleClose_iff :
    loop.atHandleClose = true ↔ loop.stack.head? = some .handleClose := by
  unfold atHandleClose
  split
  · next _ top => simp [top]
  · next other =>
      constructor
      · intro wrong
        cases wrong
      · intro head
        cases top : loop.stack with
        | nil => simp [top] at head
        | cons frame stack =>
            rw [top, List.head?_cons, Option.some.injEq] at head
            subst head
            exact (other stack top).elim

/-- `handleClose` does not rest, so it runs next only if it was just called. -/
theorem atHandleClose_of_append {frames : List Frame}
    (rested : ∀ under ∈ stack, under.rests = true)
    (becomes : next.stack = frames ++ stack) :
    next.atHandleClose = true ↔ frames.head? = some .handleClose := by
  rw [atHandleClose_iff, becomes]
  cases frames with
  | nil =>
      cases stack with
      | nil => simp
      | cons under stack =>
          constructor
          · intro head
            obtain rfl : under = .handleClose := by simpa using head
            cases rested .handleClose List.mem_cons_self
          · intro head
            cases head
  | cons frame frames => simp

theorem state_of_run (other : frame ≠ .handleClose)
    (ran : loop.run frame = .ok next) :
    next.link.state = loop.link.state := by
  by_cases uses : frame.usesLink = true
  · have turn := turn_of_run uses ran
    cases turn with
    | goes undisturbed => exact undisturbed.state_eq
    | prepare _ prepared => exact (prepare_eq prepared).1
    | handleClose same => exact (other same).elim
    | delConnection => rfl
  · rw [Bool.not_eq_true] at uses
    rw [run_of_unused uses] at ran
    cases ran
    rfl

theorem run_handleClose (ran : loop.run .handleClose = .ok next) :
    loop.link.handler.stateInPoll = .Added ∧
      next.link.state = .kDisconnected ∧
      next.stack = .delConnection :: loop.stack := by
  obtain ⟨link, closed, same⟩ := bind_eq_ok ran
  cases same
  obtain ⟨added, state, _⟩ := startClose_eq closed
  exact ⟨added, state, rfl⟩

theorem connected_of_run (ran : loop.run frame = .ok next)
    (connected : next.link.state = .kConnected) :
    loop.link.state = .kConnected := by
  by_cases closes : frame = .handleClose
  · subst closes
    obtain ⟨_, closed, _⟩ := run_handleClose ran
    cases closed.symm.trans connected
  · exact (state_of_run closes ran).symm.trans connected

theorem endsStream_iff (top : loop.stack = .handleRead :: stack) :
    loop.endsStream = true ↔ (nextRead loop.reads).1 = .ok [] := by
  simp only [endsStream, top]
  split
  · next ended => simp only [ended]
  · next other =>
      constructor
      · intro wrong
        cases wrong
      · intro ended
        exact (other _ rfl ended).elim

theorem calls_handleClose {frames : List Frame}
    (continues : Frame.Continues frame frames)
    (head : frames.head? = some .handleClose) :
    frame = .eventHangup ∨ frame = .handleRead ∨
      frame = .forceCloseInLoop := by
  cases continues with
  | hangup => exact .inl rfl
  | endOfStream => exact .inr (.inl rfl)
  | forced => exact .inr (.inr rfl)
  | _ => simp at head

theorem atHandleClose_callIf {condition : Bool}
    (rested : ∀ under ∈ loop.stack, under.rests = true) :
    (loop.callIf condition .handleClose).atHandleClose = true ↔
      condition = true := by
  cases condition with
  | true => exact iff_of_true rfl rfl
  | false =>
      have same : (loop.callIf false .handleClose).stack =
          [] ++ loop.stack := rfl
      rw [atHandleClose_of_append rested same]
      simp

theorem atHandleClose_handleRead
    (rested : ∀ under ∈ loop.stack, under.rests = true)
    (ran : loop.handleRead = .ok next) :
    next.atHandleClose = true ↔ (nextRead loop.reads).1 = .ok [] := by
  cases readStep_of_handleRead ran with
  | failed answer =>
      refine (@atHandleClose_of_append _ loop.stack [] rested rfl).trans ?_
      simp [answer]
  | ended answer => exact iff_of_true rfl answer
  | received answer more =>
      refine (@atHandleClose_of_append _ loop.stack [.callback] rested
        rfl).trans ?_
      simp [answer, more]

/-- `handleClose` is called when the peer is seen closing and by a forced close
that finds the link connected. -/
theorem atHandleClose_of_run (top : loop.stack = frame :: stack)
    (rested : ∀ under ∈ stack, under.rests = true)
    (ran : run { loop with stack } frame = .ok next) :
    next.atHandleClose = true ↔
      loop.peerCloses = true ∨
        (frame = .forceCloseInLoop ∧ loop.link.state = .kConnected) := by
  by_cases hangup : frame = .eventHangup
  · subst hangup
    cases ran
    rw [atHandleClose_callIf rested]
    simp [peerCloses, hangsUp, endsStream, top]
  by_cases read : frame = .handleRead
  · subst read
    rw [atHandleClose_handleRead rested ran, ← endsStream_iff top]
    simp [peerCloses, hangsUp, top]
  by_cases forced : frame = .forceCloseInLoop
  · subst forced
    cases ran
    rw [atHandleClose_callIf rested]
    simp [peerCloses, hangsUp, endsStream, top]
  -- The other frames do not call it.
  obtain ⟨frames, becomes, continues⟩ := continues_of_run ran
  rw [atHandleClose_of_append rested becomes]
  constructor
  · intro head
    rcases calls_handleClose continues head with wrong | wrong | wrong
    · exact (hangup wrong).elim
    · exact (read wrong).elim
    · exact (forced wrong).elim
  · intro either
    rcases either with closes | ⟨wrong, _⟩
    · cases frame with
      | eventHangup => exact (hangup rfl).elim
      | handleRead => exact (read rfl).elim
      | _ => simp [peerCloses, hangsUp, endsStream, top] at closes
    · exact (forced wrong).elim

theorem closed_iff_of_step {action : LinkAction} (other : action ≠ .exec)
    (step : LinkStep loop action next) :
    next.link.state = .kDisconnected ↔
      loop.link.state = .kDisconnected := by
  have ofCall (call : UserCall loop next) :
      next.link.state = .kDisconnected ↔
        loop.link.state = .kDisconnected := by
    cases call with
    | ignored => rfl
    | called _ stays => exact iff_of_false stays.after stays.before
    | queued stays => exact iff_of_false stays.after stays.before
  cases step with
  | goesOn => exact (other rfl).elim
  | ends => exact (other rfl).elim
  | send call => exact ofCall call
  | shutdown call => exact ofCall call
  | forceClose call => exact ofCall call
  | _ => rfl

/-- A link that has left the state `kConnected` does not come back to it. -/
theorem not_connected_step {action : LinkAction}
    (left : loop.link.state ≠ .kConnected)
    (enabled : linkMachine.enabled loop action)
    (stepped : linkMachine.step loop action = .ok next) :
    next.link.state ≠ .kConnected := by
  cases action with
  | exec =>
      obtain ⟨frame, stack, top, ran⟩ := exec_eq enabled stepped
      intro connected
      have before := connected_of_run ran connected
      exact left before
  | startFunctor =>
      cases linkStep_of_step enabled stepped with
      | startFunctor => exact left
  | send inLoop message =>
      cases stepped
      rw [send, if_neg left]
      exact left
  | shutdown inLoop =>
      cases stepped
      rw [shutdown, if_neg left]
      exact left
  | forceClose inLoop =>
      cases stepped
      rw [forceClose, if_neg left]
      exact left
  | poll | handleEvent | swapFunctors | destroyFunctors | enter | copy
  | release =>
      cases stepped
      exact left

theorem active_of_run (ran : loop.run frame = .ok next) :
    next.active = loop.active := by
  by_cases uses : frame.usesLink = true
  · cases turn_of_run uses ran with
    | _ => rfl
  · rw [Bool.not_eq_true] at uses
    rw [run_of_unused uses] at ran
    cases ran
    rfl

theorem active_of_userCall (call : UserCall loop next) :
    next.active = loop.active := by
  cases call with
  | _ => rfl

/-- The hang-up branch comes before anything that a call of `handleEvent` may do,
and finds an open link. -/
def HangupFirst (loop : LinkLoop) : Prop :=
  ∀ first second, loop.stack = first ++ .eventHangup :: second →
    loop.link.state ≠ .kDisconnected ∧ (first = [] ∨ first = [.eventError])

/-- What holds of a link in every run, beside `Inv`. -/
structure Orderly (loop : LinkLoop) : Prop where
  inv : loop.Inv
  rested : loop.Rested
  active_open : loop.active = true → loop.link.state ≠ .kDisconnected
  hangup_first : loop.HangupFirst

theorem calls_no_hangup {frames : List Frame}
    (continues : Frame.Continues frame frames) :
    .eventHangup ∉ frames := by
  cases continues with
  | _ => simp

theorem split_of_append {frames first second : List Frame}
    (absent : frame ∉ frames)
    (split : frames ++ stack = first ++ frame :: second) :
    ∃ left, first = frames ++ left ∧ stack = left ++ frame :: second := by
  rcases List.append_eq_append_iff.mp split with
    ⟨left, before, after⟩ | ⟨right, before, after⟩
  · exact ⟨left, before, after⟩
  · cases right with
    | nil =>
        rw [List.append_nil] at before
        rw [List.nil_append] at after
        exact ⟨[], by rw [List.append_nil, before], after.symm⟩
    | cons head right =>
        obtain ⟨rfl, _⟩ := List.cons_eq_cons.mp after
        exact (absent (by simp [before])).elim

theorem HangupFirst.turn (first : loop.HangupFirst)
    (top : loop.stack = frame :: stack)
    (ran : run { loop with stack } frame = .ok next) : next.HangupFirst := by
  obtain ⟨frames, becomes, continues⟩ := continues_of_run ran
  intro before after split
  rw [becomes] at split
  obtain ⟨left, same, under⟩ :=
    split_of_append (calls_no_hangup continues) split
  have whole : loop.stack = (frame :: left) ++ .eventHangup :: after :=
    top.trans (congrArg (frame :: ·) under)
  obtain ⟨opened, shape⟩ := first (frame :: left) after whole
  rcases shape with wrong | error
  · cases wrong
  · obtain ⟨rfl, rfl⟩ := List.cons_eq_cons.mp error
    cases ran
    have none : frames = [] := by
      cases continues with
      | ends => rfl
    rw [none] at same
    exact ⟨opened, .inl same⟩

theorem HangupFirst.enters {action : LinkAction} {frames : List Frame}
    (first : loop.HangupFirst)
    (active : action = .handleEvent → loop.link.state ≠ .kDisconnected)
    (closed : next.link.state = .kDisconnected ↔
      loop.link.state = .kDisconnected)
    (becomes : next.stack = frames ++ loop.stack)
    (enters : Enters loop action frames) : next.HangupFirst := by
  have ofCall (absent : .eventHangup ∉ frames)
      (callback : loop.inCallback = true) : next.HangupFirst := by
    intro before after split
    rw [becomes] at split
    obtain ⟨left, _, under⟩ := split_of_append absent split
    -- A callback is neither of the frames that may come first.
    rcases (first left after under).2 with rfl | rfl
    · simp [inCallback, under, Frame.isCallback] at callback
    · simp [inCallback, under, Frame.isCallback] at callback
  have ofEmpty (absent : .eventHangup ∉ frames) (empty : loop.stack = []) :
      next.HangupFirst := by
    intro before after split
    rw [becomes, empty, List.append_nil] at split
    exact (absent (by simp [split])).elim
  cases enters with
  | nothing =>
      intro before after split
      rw [becomes] at split
      obtain ⟨opened, shape⟩ := first before after split
      exact ⟨fun wrong => opened (closed.mp wrong), shape⟩
  | handleEvent empty =>
      intro before after split
      rw [becomes, empty, List.append_nil] at split
      refine ⟨fun wrong => active rfl (closed.mp wrong), ?_⟩
      rcases before with _ | ⟨error, before⟩
      · exact .inl rfl
      rcases before with _ | ⟨wrong, before⟩
      · rw [List.cons_append, List.cons.injEq] at split
        rw [← split.1]
        exact .inr rfl
      · simp only [List.cons_append, List.cons.injEq] at split
        have late : Frame.eventHangup ∈ [.eventInput, .eventOutput] := by
          rw [split.2.2]
          simp
        simp at late
  | startFunctor empty functors =>
      apply ofEmpty ?_ empty
      rename_i functor
      cases functor with
      | _ => simp [LinkFunctor.frame]
  | enter empty => exact ofEmpty (by simp) empty
  | send callback => exact ofCall (by simp) callback
  | shutdown callback => exact ofCall (by simp) callback

theorem Orderly.step {action : LinkAction} (orderly : loop.Orderly)
    (enabled : linkMachine.enabled loop action)
    (stepped : linkMachine.step loop action = .ok next) : next.Orderly := by
  have step := linkStep_of_step enabled stepped
  have inv := step.inv orderly.inv
  refine ⟨inv, orderly.rested.step enabled stepped, ?_, ?_⟩
  · intro active
    by_cases turn : action = .exec
    · subst turn
      obtain ⟨frame, stack, top, ran⟩ := exec_eq enabled stepped
      have before : loop.active = true := (active_of_run ran).symm.trans active
      by_cases closes : frame = .handleClose
      · subst closes
        have calm := orderly.inv.active_calm before .handleClose
          (by simp [top])
        cases calm
      · rw [state_of_run closes ran]
        exact orderly.active_open before
    · rw [ne_eq, closed_iff_of_step turn step]
      cases step with
      | poll empty none added =>
          intro closed
          cases added.symm.trans (orderly.inv.deleted_of_closed closed)
      | goesOn => exact (turn rfl).elim
      | ends => exact (turn rfl).elim
      | handleEvent => cases active
      | send call =>
          exact orderly.active_open ((active_of_userCall call).symm.trans active)
      | shutdown call =>
          exact orderly.active_open ((active_of_userCall call).symm.trans active)
      | forceClose call =>
          exact orderly.active_open ((active_of_userCall call).symm.trans active)
      | _ => exact orderly.active_open active
  · by_cases turn : action = .exec
    · subst turn
      obtain ⟨frame, stack, top, ran⟩ := exec_eq enabled stepped
      exact orderly.hangup_first.turn top ran
    · obtain ⟨frames, becomes, enters⟩ := enters_of_step enabled stepped turn
      refine orderly.hangup_first.enters ?_ (closed_iff_of_step turn step)
        becomes enters
      rintro rfl
      obtain ⟨_, active⟩ := enabled
      exact orderly.active_open active

theorem Orderly.open_of_hangsUp (orderly : loop.Orderly)
    (hangs : loop.hangsUp = true) : loop.link.state ≠ .kDisconnected := by
  unfold hangsUp at hangs
  split at hangs
  · next stack top => exact (orderly.hangup_first [] stack top).1
  · cases hangs

theorem atHandleClose_of_enters {action : LinkAction} {frames : List Frame}
    (becomes : next.stack = frames ++ loop.stack)
    (enters : Enters loop action frames)
    (here : next.atHandleClose = true) : loop.atHandleClose = true := by
  rw [atHandleClose_iff, becomes] at here
  cases enters with
  | nothing => exact atHandleClose_iff.mpr here
  | @startFunctor _ _ functor _ _ =>
      cases functor with
      | _ => simp [LinkFunctor.frame] at here
  | _ => simp at here

/-- Exactly the steps that read no closed link to its end keep the assertion of
`handleClose` from failing. -/
theorem Orderly.assertsOpen_iff {action : LinkAction} (orderly : loop.Orderly)
    (asserted : loop.AssertsOpen) (enabled : linkMachine.enabled loop action)
    (stepped : linkMachine.step loop action = .ok next) :
    next.AssertsOpen ↔ loop.ReadsOpen action := by
  by_cases turn : action = .exec
  · subst turn
    obtain ⟨frame, stack, top, ran⟩ := exec_eq enabled stepped
    by_cases closes : frame = .handleClose
    · subst closes
      obtain ⟨_, _, becomes⟩ := run_handleClose ran
      apply iff_of_true
      · intro here
        rw [atHandleClose_iff, becomes] at here
        simp at here
      · intro _ ends
        simp [endsStream, top] at ends
    · have reached := atHandleClose_of_run top
        (orderly.rested.of_top top) ran
      have kept := state_of_run closes ran
      have state : next.link.state = loop.link.state := kept
      constructor
      · intro asserts _ ends
        have here := reached.mpr (.inl (by simp [peerCloses, ends]))
        rw [← state]
        exact open_iff.mp (asserts here)
      · intro reads here
        rw [open_iff, state]
        rcases reached.mp here with peer | ⟨_, connected⟩
        · rcases Bool.or_eq_true_iff.mp peer with hangs | ends
          · exact orderly.open_of_hangsUp hangs
          · exact reads rfl ends
        · simp [connected]
  · obtain ⟨frames, becomes, enters⟩ := enters_of_step enabled stepped turn
    apply iff_of_true
    · intro here
      have before := asserted (atHandleClose_of_enters becomes enters here)
      rw [open_iff] at before ⊢
      rw [ne_eq, closed_iff_of_step turn (linkStep_of_step enabled stepped)]
      exact before
    · intro wrong
      exact (turn wrong).elim

/-- The calls of `delConnection` that are about to run. -/
def deleting (loop : LinkLoop) : Nat :=
  loop.stack.countP Frame.isDelConnection

theorem calls_delConnection {frames : List Frame}
    (continues : Frame.Continues frame frames)
    (other : frame ≠ .handleClose) :
    frames.countP Frame.isDelConnection = 0 := by
  cases continues with
  | closed => exact (other rfl).elim
  | _ => rfl

theorem enters_delConnection {action : LinkAction} {frames : List Frame}
    (enters : Enters loop action frames) :
    frames.countP Frame.isDelConnection = 0 := by
  cases enters with
  | @startFunctor _ _ functor _ _ =>
      cases functor with
      | _ => rfl
  | _ => rfl

theorem delConnections_of_top (top : loop.stack = frame :: stack) :
    (loop.delConnections .exec).length = frame.isDelConnection.toNat := by
  simp only [delConnections, top]
  cases frame with
  | _ => rfl

theorem disconnected_eq (same : next.link.state = .kDisconnected ↔
      loop.link.state = .kDisconnected) :
    next.link.disconnected = loop.link.disconnected := by
  rw [Bool.eq_iff_iff]
  simpa [LinkedSocket.disconnected] using same

/-- Only a close adds a call of `delConnection`, and it closes an open link. -/
theorem Inv.delConnections_step {action : LinkAction} (inv : loop.Inv)
    (enabled : linkMachine.enabled loop action)
    (stepped : linkMachine.step loop action = .ok next) :
    (loop.delConnections action).length + next.deleting +
        loop.link.disconnected.toNat =
      loop.deleting + next.link.disconnected.toNat := by
  by_cases turn : action = .exec
  · subst turn
    obtain ⟨frame, stack, top, ran⟩ := exec_eq enabled stepped
    rw [delConnections_of_top top, deleting, deleting, top,
      List.countP_cons]
    by_cases closes : frame = .handleClose
    · subst closes
      obtain ⟨added, state, becomes⟩ := run_handleClose ran
      have opened : loop.link.state ≠ .kDisconnected := by
        intro closed
        cases added.symm.trans (inv.deleted_of_closed closed)
      have before : loop.link.disconnected = false := by
        simpa [LinkedSocket.disconnected] using opened
      have after : next.link.disconnected = true := by
        simp [LinkedSocket.disconnected, state]
      rw [becomes, before, after]
      simp [Frame.isDelConnection, List.countP_cons]
    · obtain ⟨frames, becomes, continues⟩ := continues_of_run ran
      have state := state_of_run closes ran
      have same : next.link.disconnected = loop.link.disconnected :=
        congrArg (· == StateE.kDisconnected) state
      rw [becomes, same, List.countP_append,
        calls_delConnection continues closes]
      cases frame.isDelConnection with
      | true => simp; omega
      | false => simp
  · obtain ⟨frames, becomes, enters⟩ := enters_of_step enabled stepped turn
    have same := disconnected_eq
      (closed_iff_of_step turn (linkStep_of_step enabled stepped))
    have none : loop.delConnections action = [] := by
      cases action with
      | exec => exact (turn rfl).elim
      | _ => rfl
    rw [none, same, deleting, deleting, becomes, List.countP_append,
      enters_delConnection enters]
    simp

section Start

variable (fd : Int) (highWaterMark : Nat) (kernel : Kernel)
variable (context : Option Unit)
variable (reads : List (Except Errno (List Byte))) (inLoop : Bool)

/-- A connection of a server that keeps a context for it, or none. -/
def accepted : LinkLoop :=
  newConnection ((LinkedSocket.new fd highWaterMark kernel).setContext context)
    reads inLoop

theorem accepted_orderly :
    (accepted fd highWaterMark kernel context reads inLoop).Orderly := by
  obtain ⟨map, deleted, closed, once, fresh, active, calm, functors⟩ :=
    newConnection_inv fd highWaterMark kernel reads inLoop
  refine ⟨⟨map, deleted, closed, once, fresh, active, calm, functors⟩,
    newConnection_rested _ _ _, ?_, ?_⟩
  · intro active
    cases active
  · intro first second split
    have absent : .eventHangup ∉
        (accepted fd highWaterMark kernel context reads inLoop).stack := by
      cases inLoop with
      | true => simp [accepted, newConnection]
      | false => simp [accepted, newConnection]
    rw [split] at absent
    simp at absent

theorem accepted_deleting :
    (accepted fd highWaterMark kernel context reads inLoop).deleting = 0 := by
  cases inLoop with
  | true => rfl
  | false => rfl

theorem accepted_assertsOpen :
    (accepted fd highWaterMark kernel context reads inLoop).AssertsOpen := by
  intro _
  exact .inl rfl

end Start

end LinkLoop

section Runs

variable {fd : Int} {highWaterMark : Nat} {kernel : Kernel}
variable {context : Option Unit}
variable {reads : List (Except Errno (List Byte))} {inLoop : Bool}
variable {actions : List LinkAction} {loop : LinkLoop}

theorem accepted_run_orderly
    (runs : linkMachine.Run
      (.accepted fd highWaterMark kernel context reads inLoop)
      actions loop) : loop.Orderly :=
  runs.state_invariant LinkLoop.Orderly
    (LinkLoop.accepted_orderly fd highWaterMark kernel context reads inLoop)
    fun _ _ _ orderly enabled stepped => orderly.step enabled stepped

/-- A link that is closed has called `delConnection` once, or is about to. -/
theorem delConnections_eq
    (runs : linkMachine.Run
      (.accepted fd highWaterMark kernel context reads inLoop)
      actions loop) :
    (linkMachine.observed LinkLoop.delConnections
        (.accepted fd highWaterMark kernel context reads inLoop)
        actions).length + loop.deleting = loop.link.disconnected.toNat := by
  induction runs with
  | refl =>
      rw [LinkLoop.accepted_deleting]
      rfl
  | @step actions loop next action before enabled stepped induction =>
      have inv := (accepted_run_orderly before).inv
      have step := inv.delConnections_step enabled stepped
      rw [before.observed_concat stepped, List.length_append]
      omega

theorem delConnections_le_one
    (runs : linkMachine.Run
      (.accepted fd highWaterMark kernel context reads inLoop)
      actions loop) :
    (linkMachine.observed LinkLoop.delConnections
      (.accepted fd highWaterMark kernel context reads inLoop)
      actions).length ≤ 1 := by
  have count := delConnections_eq runs
  have bound := Bool.toNat_le loop.link.disconnected
  omega

/-- The contexts that `HttpServer::delConnection` deletes in its calls: it leaves
the pointer in the link, so each call that finds one deletes it. -/
def HttpServer.contextsDeleted (calls : List (Option Unit)) : List Unit :=
  calls.filterMap id

/-- In a run of a link, whatever is reported, read and called, the assertion of
`handleClose` never fails and the link is closed at most once exactly if no
closed link is read to the end of its stream. -/
theorem closed_once_iff
    (runs : linkMachine.Run
      (.accepted fd highWaterMark kernel context reads inLoop)
      actions loop) :
    (∀ first second middle, actions = first ++ second →
      linkMachine.Run
        (.accepted fd highWaterMark kernel context reads inLoop)
        first middle →
      middle.AssertsOpen ∧
        (linkMachine.observed LinkLoop.delConnections
          (.accepted fd highWaterMark kernel context reads inLoop)
          first).length ≤ 1 ∧
        (HttpServer.contextsDeleted
          (linkMachine.observed LinkLoop.delConnections
            (.accepted fd highWaterMark kernel context reads inLoop)
            first)).length ≤ 1) ↔
    (linkMachine.restrict LinkLoop.ReadsOpen).Run
      (.accepted fd highWaterMark kernel context reads inLoop)
      actions loop := by
  have asserted := Machine.Run.always_iff_restrict
    (LinkLoop.accepted_orderly fd highWaterMark kernel context reads inLoop)
    (LinkLoop.accepted_assertsOpen fd highWaterMark kernel context reads
      inLoop)
    (fun loop action next orderly enabled stepped =>
      LinkLoop.Orderly.step orderly enabled stepped)
    (fun loop action next orderly asserted enabled stepped =>
      LinkLoop.Orderly.assertsOpen_iff orderly asserted enabled stepped)
    runs
  rw [← asserted]
  constructor
  · intro always first second middle split reached
    exact (always first second middle split reached).1
  · intro always first second middle split reached
    have once := delConnections_le_one reached
    refine ⟨always first second middle split reached, once, ?_⟩
    exact Nat.le_trans (List.length_filterMap_le _ _) once

instance (loop : LinkLoop) (action : LinkAction) :
    Decidable (loop.ReadsOpen action) :=
  inferInstanceAs (Decidable (action = .exec → loop.endsStream = true →
    loop.link.state ≠ .kDisconnected))

instance (loop : LinkLoop) (action : LinkAction) :
    Decidable ((linkMachine.restrict LinkLoop.ReadsOpen).enabled loop
      action) :=
  inferInstanceAs (Decidable (linkMachine.enabled loop action ∧
    loop.ReadsOpen action))

instance (loop : LinkLoop) : Decidable loop.AssertsOpen :=
  inferInstanceAs (Decidable (loop.atHandleClose = true →
    loop.link.state = .kConnected ∨ loop.link.state = .kDisconnecting))

/-- A user shuts a link down and forces it closed while the peer hangs up; the
functors find it closed. -/
theorem closed_once_iff_hangup :
    ∃ actions loop,
      linkMachine.Run (.accepted 5 65536 ⟨[], []⟩ (some ()) [] false)
        actions loop ∧
      loop.link.state = .kDisconnected ∧ loop.stack.isEmpty = true ∧
      ∀ first second middle, actions = first ++ second →
        linkMachine.Run (.accepted 5 65536 ⟨[], []⟩ (some ()) [] false)
          first middle →
        middle.AssertsOpen ∧
          (linkMachine.observed LinkLoop.delConnections
            (.accepted 5 65536 ⟨[], []⟩ (some ()) [] false)
            first).length ≤ 1 ∧
          (HttpServer.contextsDeleted
            (linkMachine.observed LinkLoop.delConnections
              (.accepted 5 65536 ⟨[], []⟩ (some ()) [] false)
              first)).length ≤ 1 := by
  have found : ((linkMachine.restrict LinkLoop.ReadsOpen).execute
      (.accepted 5 65536 ⟨[], []⟩ (some ()) [] false)
      [.swapFunctors, .startFunctor, .exec, .destroyFunctors,
        .poll (POLLPRI ||| POLLOUT ||| POLLHUP), .forceClose false,
        .shutdown false, .handleEvent, .exec, .exec, .exec, .exec, .exec,
        .exec, .exec, .exec, .exec, .swapFunctors, .startFunctor, .exec,
        .destroyFunctors]).any
      (fun loop => loop.link.state = .kDisconnected ∧
        loop.stack.isEmpty = true) = true := by
    decide +kernel
  obtain ⟨loop, guarded, accepted⟩ := Machine.run_of_execute found
  have runs := guarded.of_restrict
  obtain ⟨closed, empty⟩ := of_decide_eq_true accepted
  exact ⟨_, loop, runs, closed, empty, (closed_once_iff runs).mpr guarded⟩

/-- Hang-up and urgent data are reported together: the hang-up branch closes the
link, the read finds the end of the stream and `handleClose` asserts in vain. -/
theorem closed_twice :
    ∃ actions loop,
      linkMachine.Run (.accepted 5 65536 ⟨[], []⟩ (some ()) [.ok []] true)
        actions loop ∧
      actions = [.exec, .exec, .exec, .copy, .poll (POLLPRI ||| POLLHUP),
        .handleEvent, .exec, .exec, .exec, .exec, .exec, .exec, .exec] ∧
      ¬ loop.AssertsOpen ∧
      linkMachine.step loop .exec = .error .handleClose := by
  have found : (linkMachine.execute
      (.accepted 5 65536 ⟨[], []⟩ (some ()) [.ok []] true)
      [.exec, .exec, .exec, .copy, .poll (POLLPRI ||| POLLHUP),
        .handleEvent, .exec, .exec, .exec, .exec, .exec, .exec, .exec]).any
      (fun loop => ¬ loop.AssertsOpen ∧
        (match linkMachine.step loop .exec with
          | .error .handleClose => true
          | _ => false) = true) = true := by
    decide +kernel
  obtain ⟨loop, runs, accepted⟩ := Machine.run_of_execute found
  obtain ⟨fails, faults⟩ := of_decide_eq_true accepted
  refine ⟨_, loop, runs, rfl, fails, ?_⟩
  split at faults
  · next fault => exact fault
  · cases faults

end Runs

end Muduo
