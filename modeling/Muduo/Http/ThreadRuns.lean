import Muduo.Http.Dispatch
import Muduo.Http.ThreadSteps

/-!
# Runs of the two threads

The io thread may be ahead of the main thread: the link is registered before the
main thread has looked it up again and set its context.  That only matters if
the link is erased, deleted or done with the bytes of a request too early; and a
call of `rcvMessage` never dispatches more than one request.
-/

namespace Muduo

open Library

namespace ServerThreads

open HttpServer

section Property

variable (owner : LinkOwner HttpContext) (httpCallback : HttpCallback)

/-- What has been dispatched once the call of `rcvMessage` that is due, if one
is, has been made. -/
def passed (state : ServerThreads) : List HttpRequest :=
  match state.rcvMessage owner httpCallback with
  | .ok next => next.conn.dispatched
  | .error _ => state.conn.dispatched

/-- After `newConnection`, all that was read of complete requests is passed to
the callback without another read. -/
def Passes (state : ServerThreads) : Prop :=
  state.main = .returned → ∀ reqs left, Requests state.received reqs left →
    reqs <+: (state.passed owner httpCallback).map HttpRequest.timeless

/-- The assert of `newConnection` does not fail, every complete request is
passed, and the context is allocated at most once and, if the link is closed,
freed as often. -/
structure Sound (state : ServerThreads) : Prop where
  found : state.newConnection ≠ .error .newConnectionFind
  passes : state.Passes owner httpCallback
  allocated_once : state.allocated ≤ 1
  freed_once : state.io = .deleted ∨ state.io = .closed →
    state.freed = state.allocated

end Property

/-- The calls of `rcvMessage` that are due. -/
def calls (state : ServerThreads) : Nat :=
  if state.io.isReceived then 1 else 0

/-- The name is not erased while the main thread looks for it, the context is
not set on a link that `delConnection` has seen without one, and whenever the
main thread has returned, or does so, there is a call of `rcvMessage` to come
for each complete request that is not dispatched. -/
def Agrees (state : ServerThreads) : ServerAction → Prop
  | .newConnection =>
      (state.main = .setting → state.io ≠ .deleted ∧ state.io ≠ .closed) ∧
      (state.Returns → AtMost state.calls state.received)
  | .read chunk =>
      state.main = .returned →
        AtMost (state.conn.dispatched.length + 1)
          (state.received ++ chunk.bytes)
  | .erase => state.main ≠ .finding
  | .prepare | .rcvMessage | .handleClose | .delContext => True

variable {owner : LinkOwner HttpContext} {httpCallback : AppendingCallback}
variable {state next : ServerThreads} {conn : HttpConnection}
variable {pending : List Byte}

theorem found_iff : state.newConnection ≠ .error .newConnectionFind ↔
    (state.main = .finding → state.mapped = true) := by
  constructor
  · intro passes main
    by_contra unmapped
    exact passes (by simp [newConnection, main, unmapped])
  · intro mapped failed
    simp only [newConnection, assertThat_bind] at failed
    split at failed
    · split at failed <;> cases failed
    · cases failed
    · next main =>
        rw [if_pos (mapped main)] at failed
        cases failed
    · cases failed
    · split at failed
      · split at failed <;> cases failed
      · cases failed
    · cases failed
    · cases failed

theorem passed_of_not_due (quiet : state.io.isReceived = false) :
    state.passed owner httpCallback = state.conn.dispatched := by
  unfold passed rcvMessage
  cases io : state.io with
  | received receiveTime => simp [io, IoPhase.isReceived] at quiet
  | _ => rfl

theorem calls_of_due (due : state.io.isReceived = true) : state.calls = 1 :=
  if_pos due

theorem calls_of_not_due (quiet : state.io.isReceived = false) :
    state.calls = 0 := by
  simp [calls, quiet]

variable (owner httpCallback) in
/-- A call that is due passes the first of the pending requests, and no other
one. -/
theorem Inv.passed_of_due (calm : owner.Calm) (inv : state.Inv)
    (returned : state.main = .returned) {receiveTime : Timestamp}
    (io : state.io = .received receiveTime)
    (reading : Reading state.conn pending) :
    (∃ final rest, Parses .new pending .complete final rest ∧
      (state.passed owner httpCallback).map HttpRequest.timeless =
        state.conn.dispatched.map HttpRequest.timeless ++ [final.request]) ∨
    (state.passed owner httpCallback = state.conn.dispatched ∧
      ∀ final rest, ¬ Parses .new pending .complete final rest) := by
  cases result : HttpServer.rcvMessage owner httpCallback state.conn
      receiveTime with
  | ok after =>
      have passed : state.passed owner httpCallback = after.dispatched := by
        simp only [ServerThreads.passed, ServerThreads.rcvMessage, io, result,
          ok_bind]
        rfl
      rw [passed]
      rcases reading.rcvMessage calm result with
        ⟨unset, _⟩ | ⟨_, _, passing⟩
      · have opened : state.Open := by simp [Open, io]
        exact ((inv.waits unset opened).1 returned).elim
      · cases passing with
        | @complete final rest parses _ dispatched =>
            refine .inl ⟨_, rest, parses, ?_⟩
            rw [dispatched, List.map_append]
            rfl
        | waiting none _ dispatched => exact .inr ⟨dispatched, none⟩
  | error fault =>
      refine .inr ⟨?_, ?_⟩
      · simp only [ServerThreads.passed, ServerThreads.rcvMessage, io, result]
        rfl
      · cases reading with
        | waiting _ _ unset _ =>
            simp only [HttpServer.rcvMessage, unset] at result
            cases result
        | alive alive =>
            obtain ⟨after, received⟩ :=
              alive.rcvMessage_ok calm httpCallback receiveTime
            cases received.symm.trans result
        | stuck _ refused =>
            intro final rest parses
            exact refused.not_complete
              (Parses.complete_iff.mp ⟨final, parses⟩)

variable (httpCallback) in
/-- The requests are passed exactly if there is a call for each of them. -/
theorem Inv.passes_iff (calm : owner.Calm) (inv : state.Inv)
    (returned : state.main = .returned) :
    state.Passes owner httpCallback ↔
      AtMost (state.conn.dispatched.length + state.calls)
        state.received := by
  have always : state.Passes owner httpCallback ↔
      ∀ reqs left, Requests state.received reqs left →
        reqs <+: (state.passed owner httpCallback).map HttpRequest.timeless :=
    ⟨fun passes => passes returned, fun fronts _ => fronts⟩
  rw [always]
  obtain ⟨pending, known, stage⟩ := inv.reads
  cases due : state.io.isReceived with
  | true =>
      obtain ⟨receiveTime, io⟩ := received_of_isReceived due
      rw [io] at stage
      rw [calls_of_due due]
      cases stage with
      | received reading =>
          rcases inv.passed_of_due owner httpCallback calm returned io reading
            with ⟨final, rest, parses, passed⟩ | ⟨passed, none⟩
          · rw [passed, (known.concat parses).prefix_iff_atMost,
              List.length_append, List.length_map, List.length_singleton]
          · have enough := known.atMost_of_incomplete none
            rw [passed, known.prefix_iff_atMost]
            rw [List.length_map] at enough ⊢
            exact iff_of_true enough (enough.mono (Nat.le_succ _))
  | false =>
      rw [calls_of_not_due due, passed_of_not_due due,
        known.prefix_iff_atMost, List.length_map, Nat.add_zero]

theorem Sound.going (sound : state.Sound owner httpCallback)
    (found : next.main = .finding → next.mapped = true)
    (going : next.main ≠ .returned)
    (allocated : next.allocated = state.allocated)
    (freed : next.freed = state.freed)
    (io : next.io = .deleted ∨ next.io = .closed → next.io = state.io) :
    next.Sound owner httpCallback where
  found := found_iff.mpr found
  passes := fun returned => (going returned).elim
  allocated_once := allocated ▸ sound.allocated_once
  freed_once := by
    intro ended
    rw [allocated, freed]
    exact sound.freed_once (io ended ▸ ended)

/-- What the return of the main thread loses: requests whose call has been made
already, and a context that nobody frees. -/
theorem Inv.sound_returned_iff (calm : owner.Calm) (inv : next.Inv)
    (returned : next.main = .returned)
    (undispatched : next.conn.dispatched = []) :
    next.Sound owner httpCallback ↔
      (next.io = .deleted ∨ next.io = .closed →
        next.freed = next.allocated) ∧
      AtMost next.calls next.received := by
  have passes := inv.passes_iff httpCallback calm returned
  rw [undispatched, List.length_nil, Nat.zero_add] at passes
  constructor
  · intro sound
    exact ⟨sound.freed_once, passes.mp sound.passes⟩
  · rintro ⟨freed, atMost⟩
    exact ⟨found_iff.mpr (by simp [returned]), passes.mpr atMost,
      inv.allocated_le, freed⟩

theorem Inv.newConnection_iff (calm : owner.Calm) (inv : state.Inv)
    (sound : state.Sound owner httpCallback)
    (mainStep : MainStep state next) :
    next.Sound owner httpCallback ↔ state.Agrees .newConnection := by
  have invNext := inv.newConnection mainStep
  cases mainStep with
  | inserted main =>
      refine iff_of_true ?_ ⟨by simp [main], by simp [Returns, main]⟩
      exact sound.going (by simp) (by simp) rfl rfl (fun _ => rfl)
  | queued main =>
      refine iff_of_true ?_ ⟨by simp [main], by simp [Returns, main]⟩
      exact sound.going (fun _ => inv.mapped main) (by simp) rfl rfl (by simp)
  | between _ unset main goes =>
      refine iff_of_true ?_ ⟨fun set => (unset set).elim,
        fun returns => (goes returns).elim⟩
      exact sound.going (by cases main <;> simp) (by cases main <;> simp) rfl
        rfl (fun _ => rfl)
  | @unconnected found main unconnected =>
      have undispatched :=
        inv.undispatched (inv.unset (by simp [main]))
      rw [invNext.sound_returned_iff calm rfl undispatched]
      have returns : state.Returns := .inr ⟨⟨found, main⟩, unconnected⟩
      constructor
      · intro kept
        exact ⟨by simp [main], fun _ => kept.2⟩
      · intro agrees
        exact ⟨sound.freed_once, agrees.2 returns⟩
  | set main =>
      have unset := inv.unset (by simp [main])
      rw [invNext.sound_returned_iff calm rfl (inv.undispatched unset)]
      have none := inv.allocated_unset unset
      have returns : state.Returns := .inl main
      constructor
      · rintro ⟨freed, atMost⟩
        refine ⟨fun _ => ?_, fun _ => atMost⟩
        rw [← not_or]
        intro ended
        have before := sound.freed_once ended
        have after : state.freed = state.allocated + 1 := freed ended
        omega
      · intro agrees
        obtain ⟨alive, opened⟩ := agrees.1 main
        refine ⟨?_, agrees.2 returns⟩
        rintro (deleted | closed)
        · exact (alive deleted).elim
        · exact (opened closed).elim

theorem Sound.of_passed (sound : state.Sound owner httpCallback)
    (main : next.main = state.main) (mapped : next.mapped = state.mapped)
    (received : next.received = state.received)
    (passed : next.passed owner httpCallback =
      state.passed owner httpCallback)
    (allocated : next.allocated = state.allocated)
    (freed : next.io = .deleted ∨ next.io = .closed →
      next.freed = next.allocated) : next.Sound owner httpCallback where
  found := by
    rw [found_iff, main, mapped]
    exact found_iff.mp sound.found
  passes := by
    rw [Passes, main, received, passed]
    exact sound.passes
  allocated_once := allocated ▸ sound.allocated_once
  freed_once := freed

theorem Sound.prepare (sound : state.Sound owner httpCallback)
    (queued : state.io = .queued) (stepped : state.prepare = .ok next) :
    next.Sound owner httpCallback := by
  obtain ⟨link, _, same⟩ := bind_eq_ok stepped
  cases same
  refine sound.of_passed rfl rfl rfl ?_ rfl (by simp)
  rw [passed_of_not_due rfl, passed_of_not_due (by rw [queued]; rfl)]

theorem Inv.read_iff (calm : owner.Calm) (inv : state.Inv)
    (sound : state.Sound owner httpCallback) (idle : state.io = .idle)
    {chunk : Chunk} (stepped : state.read chunk = .ok next) :
    next.Sound owner httpCallback ↔ state.Agrees (.read chunk) := by
  have invNext := inv.read idle stepped
  have found := found_iff.mp sound.found
  obtain ⟨filled, _, same⟩ := bind_eq_ok stepped
  cases same
  constructor
  · intro soundNext returned
    exact (invNext.passes_iff httpCallback calm returned).mp soundNext.passes
  · intro agrees
    exact
      { found := found_iff.mpr found
        passes := fun returned =>
          (invNext.passes_iff httpCallback calm returned).mpr
            (agrees returned) returned
        allocated_once := sound.allocated_once
        freed_once := by simp }

theorem Sound.rcvMessage (sound : state.Sound owner httpCallback)
    (due : state.io.isReceived = true)
    (stepped : state.rcvMessage owner httpCallback = .ok next) :
    next.Sound owner httpCallback := by
  have passed : state.passed owner httpCallback = next.conn.dispatched := by
    simp only [ServerThreads.passed, stepped]
  obtain ⟨receiveTime, io⟩ := received_of_isReceived due
  obtain ⟨after, _, rfl⟩ := rcvMessage_received io stepped
  refine sound.of_passed rfl rfl rfl ?_ rfl (by simp)
  rw [passed, passed_of_not_due rfl]

theorem Sound.handleClose (sound : state.Sound owner httpCallback)
    (idle : state.io = .idle) (stepped : state.handleClose = .ok next) :
    next.Sound owner httpCallback := by
  obtain ⟨link, _, same⟩ := bind_eq_ok stepped
  cases same
  refine sound.of_passed rfl rfl rfl ?_ rfl (by simp)
  rw [passed_of_not_due rfl, passed_of_not_due (by rw [idle]; rfl)]

theorem Inv.delContext_sound (inv : state.Inv)
    (sound : state.Sound owner httpCallback)
    (closing : state.io = .closing) :
    state.delContext.Sound owner httpCallback := by
  have none := inv.unfreed (by simp [closing]) (by simp [closing])
  refine sound.of_passed rfl rfl rfl ?_ rfl ?_
  · rw [passed_of_not_due rfl, passed_of_not_due (by rw [closing]; rfl)]
    rfl
  · intro _
    have freed : state.delContext.freed = state.freed + state.allocated :=
      congrArg (state.freed + ·) inv.allocated.symm
    rw [freed, none, Nat.zero_add]
    rfl

theorem Sound.erase_iff (sound : state.Sound owner httpCallback)
    (deleted : state.io = .deleted) :
    state.erase.Sound owner httpCallback ↔ state.Agrees .erase := by
  constructor
  · intro soundNext finding
    cases found_iff.mp soundNext.found finding
  · intro agrees
    have passed : state.erase.passed owner httpCallback =
        state.passed owner httpCallback := by
      rw [passed_of_not_due rfl, passed_of_not_due (by rw [deleted]; rfl)]
      rfl
    exact
      { found := found_iff.mpr fun finding => (agrees finding).elim
        passes := by
          rw [Passes, passed]
          exact sound.passes
        allocated_once := sound.allocated_once
        freed_once := fun _ => sound.freed_once (.inl deleted) }

theorem Inv.step_iff (calm : owner.Calm) (inv : state.Inv)
    (sound : state.Sound owner httpCallback) {action : ServerAction}
    (enabled : (machine owner httpCallback).enabled state action)
    (stepped : (machine owner httpCallback).step state action = .ok next) :
    next.Sound owner httpCallback ↔ state.Agrees action := by
  cases action with
  | newConnection =>
      exact inv.newConnection_iff calm sound
        (mainStep_of_newConnection enabled stepped)
  | prepare => exact iff_of_true (sound.prepare enabled stepped) trivial
  | read chunk => exact inv.read_iff calm sound enabled.1 stepped
  | rcvMessage => exact iff_of_true (sound.rcvMessage enabled stepped) trivial
  | handleClose =>
      exact iff_of_true (sound.handleClose enabled stepped) trivial
  | delContext =>
      cases stepped
      exact iff_of_true (inv.delContext_sound sound enabled) trivial
  | erase =>
      cases stepped
      exact sound.erase_iff enabled

theorem start_sound (fd : Int) (highWaterMark : Nat)
    (writes : List WriteResult) :
    (start fd highWaterMark writes).Sound owner httpCallback where
  found := found_iff.mpr (by simp [start])
  passes := by
    intro returned
    cases returned
  allocated_once := Nat.zero_le 1
  freed_once := by simp [start]

/-- In a run of the two threads the assert of `newConnection` never fails, what
was read completely is passed to the callback, and the context is allocated at
most once and freed if the link is closed, exactly if every step of the run meets
the condition. -/
theorem newConnection_sound_iff (calm : owner.Calm)
    (httpCallback : AppendingCallback) (fd : Int) (highWaterMark : Nat)
    (writes : List WriteResult) {actions : List ServerAction}
    {final : ServerThreads}
    (run : (machine owner httpCallback).Run (start fd highWaterMark writes)
      actions final) :
    (∀ first second middle, actions = first ++ second →
      (machine owner httpCallback).Run (start fd highWaterMark writes) first
        middle →
      middle.Sound owner httpCallback) ↔
    ((machine owner httpCallback).restrict Agrees).Run
      (start fd highWaterMark writes) actions final := by
  apply run.always_iff_restrict (start_inv fd highWaterMark writes)
    (start_sound fd highWaterMark writes)
  · intro state action next inv enabled stepped
    exact inv.step calm enabled stepped
  · intro state action next inv sound enabled stepped
    exact inv.step_iff calm sound enabled stepped

/-- One request has been read, and waits for its call, when the main thread sets
the context. -/
def Early (state : ServerThreads) : ServerAction → Prop
  | .newConnection =>
      state.conn.link.connected = true ∧ state.io ≠ .deleted ∧
      state.io ≠ .closed ∧
      (state.main = .setting →
        state.io.isReceived = true ∧ state.received = getRoot.render)
  | .read _ => state.main ≠ .returned
  | .erase => state.main ≠ .finding
  | .prepare | .rcvMessage | .handleClose | .delContext => True

instance decidableEarly (state : ServerThreads) :
    (action : ServerAction) → Decidable (state.Early action)
  | .newConnection =>
      inferInstanceAs (Decidable
        (state.conn.link.connected = true ∧ state.io ≠ .deleted ∧
        state.io ≠ .closed ∧
        (state.main = .setting →
          state.io.isReceived = true ∧ state.received = getRoot.render)))
  | .read _ => inferInstanceAs (Decidable (state.main ≠ .returned))
  | .erase => inferInstanceAs (Decidable (state.main ≠ .finding))
  | .prepare | .rcvMessage | .handleClose | .delContext =>
      inferInstanceAs (Decidable True)

theorem Early.agrees {action : ServerAction} (early : state.Early action) :
    state.Agrees action := by
  cases action with
  | newConnection =>
      obtain ⟨connected, alive, opened, waiting⟩ := early
      refine ⟨fun _ => ⟨alive, opened⟩, ?_⟩
      rintro (set | ⟨_, unconnected⟩)
      · obtain ⟨due, received⟩ := waiting set
        rw [calls_of_due due, received]
        exact atMost_render getRoot
      · cases connected.symm.trans unconnected
  | read chunk => exact fun returned => (early returned).elim
  | erase => exact early
  | prepare => exact trivial
  | rcvMessage => exact trivial
  | handleClose => exact trivial
  | delContext => exact trivial

/-- A request is read while the main thread is in `newConnection`, and the peer
closes when it has the answer. -/
theorem newConnection_sound_iff_early :
    ∃ actions final,
      (machine silentOwner appendingDefault).Run (start 5 64 []) actions
        final ∧
      (∀ first second middle, actions = first ++ second →
        (machine silentOwner appendingDefault).Run (start 5 64 []) first
          middle →
        middle.Sound silentOwner appendingDefault) ∧
      final.io = .closed ∧ final.allocated = 1 ∧
      final.conn.dispatched.length = 1 := by
  have found : (((machine silentOwner appendingDefault).restrict
      Early).execute (start 5 64 [])
      [.newConnection, .newConnection, .prepare, .newConnection,
        .read ⟨getRoot.render, 1⟩, .newConnection, .newConnection,
        .newConnection, .rcvMessage, .handleClose, .delContext, .erase]).any
      (fun final => final.io = .closed ∧ final.allocated = 1 ∧
        final.conn.dispatched.length = 1) = true := by
    decide +kernel
  obtain ⟨final, early, reached⟩ := Machine.run_of_execute found
  have agrees := early.restrict_mono (fun _ _ _ early => early.agrees)
  have run := agrees.of_restrict
  exact ⟨_, final, run, (newConnection_sound_iff silentOwner_quiet.calm
    appendingDefault 5 64 [] run).mpr agrees, of_decide_eq_true reached⟩

/-- A fast peer.  It closes before the lookup, and the assert fails; it sends a
request before the context is there, and the request is not dispatched; it
closes between the check and `setContext`, and the context is not freed. -/
theorem fast_peer_breaks :
    (∃ state, (machine silentOwner defaultHttpCallback).Run (start 5 64 [])
        [.newConnection, .newConnection, .prepare, .handleClose, .delContext,
          .erase] state ∧
      (machine silentOwner defaultHttpCallback).enabled state
        .newConnection ∧
      (machine silentOwner defaultHttpCallback).step state .newConnection =
        .error .newConnectionFind) ∧
    (∃ state, (machine silentOwner defaultHttpCallback).Run (start 5 64 [])
        [.newConnection, .newConnection, .prepare,
          .read ⟨getRoot.render, 1⟩, .rcvMessage, .newConnection,
          .newConnection, .newConnection, .newConnection] state ∧
      state.main = .returned ∧ state.io = .idle ∧
      Requests state.received [getRoot.request] [] ∧
      state.conn.dispatched = []) ∧
    (∃ state, (machine silentOwner defaultHttpCallback).Run (start 5 64 [])
        [.newConnection, .newConnection, .newConnection, .newConnection,
          .newConnection, .prepare, .handleClose, .delContext, .erase,
          .newConnection] state ∧
      state.main = .returned ∧ state.io = .closed ∧ state.allocated = 1 ∧
      state.freed = 0) := by
  refine ⟨?_, ?_, ?_⟩
  · have found : ((machine silentOwner defaultHttpCallback).execute
        (start 5 64 [])
        [.newConnection, .newConnection, .prepare, .handleClose, .delContext,
          .erase]).any
        (fun state => state.main = .finding ∧ state.mapped = false) =
        true := by
      decide +kernel
    obtain ⟨state, run, reached⟩ := Machine.run_of_execute found
    obtain ⟨main, unmapped⟩ := of_decide_eq_true reached
    refine ⟨state, run, ?_, ?_⟩
    · simp [machine, Enabled, main]
    · simp [machine, step, newConnection, main, unmapped]
  · have found : ((machine silentOwner defaultHttpCallback).execute
        (start 5 64 [])
        [.newConnection, .newConnection, .prepare,
          .read ⟨getRoot.render, 1⟩, .rcvMessage, .newConnection,
          .newConnection, .newConnection, .newConnection]).any
        (fun state => state.main = .returned ∧ state.io = .idle ∧
          state.received = getRoot.render ∧
          state.conn.dispatched.length = 0) = true := by
      decide +kernel
    obtain ⟨state, run, reached⟩ := Machine.run_of_execute found
    obtain ⟨main, io, received, nothing⟩ := of_decide_eq_true reached
    have parses := getRoot.parses []
    rw [List.append_nil] at parses
    refine ⟨state, run, main, io, ?_, List.eq_nil_of_length_eq_zero nothing⟩
    rw [received]
    exact .cons parses (.nil [])
  · have found : ((machine silentOwner defaultHttpCallback).execute
        (start 5 64 [])
        [.newConnection, .newConnection, .newConnection, .newConnection,
          .newConnection, .prepare, .handleClose, .delContext, .erase,
          .newConnection]).any
        (fun state => state.main = .returned ∧ state.io = .closed ∧
          state.allocated = 1 ∧ state.freed = 0) = true := by
      decide +kernel
    obtain ⟨state, run, reached⟩ := Machine.run_of_execute found
    exact ⟨state, run, of_decide_eq_true reached⟩

end ServerThreads

end Muduo
