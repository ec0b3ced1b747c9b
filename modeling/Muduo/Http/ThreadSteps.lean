import Muduo.Http.ServerThreads

/-!
# Steps of the two threads

What the main thread may do with the link, and what the io thread leaves of it.
Until the link is prepared nothing is read, and until it is closed only
`setContext` of the main thread, its last step, changes what a call of
`rcvMessage` does.
-/

namespace Muduo

/-- The main thread between the lookup and its last step. -/
inductive MainPhase.Between : MainPhase → Prop where
  | looking : Between .looking
  | checking (found : Bool) : Between (.checking found)
  | setting : Between .setting

namespace ServerThreads

open HttpServer

variable {owner : LinkOwner HttpContext} {httpCallback : HttpCallback}
variable {state next : ServerThreads} {conn : HttpConnection}
variable {pending : List Byte}

/-- The main thread returns with its next step. -/
def Returns (state : ServerThreads) : Prop :=
  state.main = .setting ∨
    (∃ found, state.main = .checking found) ∧
      state.conn.link.connected = false

/-- The steps of the main thread. -/
inductive MainStep (state : ServerThreads) : ServerThreads → Prop where
  | inserted : state.main = .inserting →
      MainStep state { state with main := .queueing, mapped := true }
  | queued : state.main = .queueing →
      MainStep state { state with main := .finding, io := .queued }
  | between {main : MainPhase} {mapped : Bool} :
      state.main ≠ .returned → state.main ≠ .setting →
      main.Between → ¬ state.Returns →
      MainStep state { state with main, mapped }
  | unconnected {found : Bool} :
      state.main = .checking found → state.conn.link.connected = false →
      MainStep state { state with main := .returned }
  | set : state.main = .setting →
      MainStep state
        { state with
          main := .returned
          conn := { state.conn with
            link := state.conn.link.setContext (some .new) }
          allocated := state.allocated + 1 }

theorem mainStep_of_newConnection (enabled : state.main ≠ .returned)
    (stepped : state.newConnection = .ok next) : MainStep state next := by
  unfold newConnection at stepped
  split at stepped
  · next main =>
      obtain ⟨_, _, same⟩ := bind_eq_ok stepped
      cases same
      exact .inserted main
  · next main =>
      cases stepped
      exact .queued main
  · next main =>
      obtain ⟨_, _, same⟩ := bind_eq_ok stepped
      cases same
      exact .between enabled (by simp [main]) .looking (by simp [Returns, main])
  · next main =>
      cases stepped
      exact .between enabled (by simp [main]) (.checking _)
        (by simp [Returns, main])
  · next found main =>
      obtain ⟨_, _, branch⟩ := bind_eq_ok stepped
      split at branch
      · next connected =>
          cases branch
          exact .between enabled (by simp [main]) .setting
            (by simp [Returns, main, connected])
      · next unconnected =>
          cases branch
          exact .unconnected main (by simpa using unconnected)
  · next main =>
      cases stepped
      exact .set main
  · next main => exact (enabled main).elim

/-- A connection whose link is not registered yet. -/
structure Unprepared (conn : HttpConnection) : Prop where
  handler : ∃ fd, conn.link.handler = .new fd
  output : conn.link.outputBuffer = .new kInitialSize
  input_sound : conn.link.inputBuffer.Sound
  input_eq : input conn = []
  context : conn.link.context = none ∨ conn.link.context = some .new

/-- A connection that may be read, with the bytes that no dispatched request has
consumed. -/
inductive Reading (conn : HttpConnection) (pending : List Byte) : Prop where
  | waiting :
      conn.link.Steady → conn.link.inputBuffer.Sound →
      conn.link.context = none → input conn = pending → Reading conn pending
  | alive : Alive conn pending → Reading conn pending
  | stuck : Stuck conn → RefusedAfterMethod pending → Reading conn pending

/-- What the io thread has made of the link. -/
inductive Stage (conn : HttpConnection) (pending : List Byte) :
    IoPhase → Prop where
  | unqueued : Unprepared conn → pending = [] → Stage conn pending .unqueued
  | queued : Unprepared conn → pending = [] → Stage conn pending .queued
  | idle : Reading conn pending → Stage conn pending .idle
  | received {receiveTime : Timestamp} :
      Reading conn pending → Stage conn pending (.received receiveTime)
  | closing : Stage conn pending .closing
  | deleted : Stage conn pending .deleted
  | closed : Stage conn pending .closed

/-- `handleClose` has not been called. -/
def Open (state : ServerThreads) : Prop :=
  state.io ≠ .closing ∧ state.io ≠ .deleted ∧ state.io ≠ .closed

structure Inv (state : ServerThreads) : Prop where
  unqueued : state.main = .inserting ∨ state.main = .queueing →
    state.io = .unqueued
  mapped : state.main = .queueing → state.mapped = true
  unset : state.main ≠ .returned → state.conn.link.context = none
  waits : state.conn.link.context = none → state.Open →
    state.main ≠ .returned ∧ state.conn.link.connected = true
  undispatched : state.conn.link.context = none → state.conn.dispatched = []
  allocated : state.allocated =
    if state.conn.link.context.isSome then 1 else 0
  unfreed : state.io ≠ .deleted → state.io ≠ .closed → state.freed = 0
  reads : ∃ pending,
    Requests state.received
      (state.conn.dispatched.map HttpRequest.timeless) pending ∧
    Stage state.conn pending state.io

theorem start_inv (fd : Int) (highWaterMark : Nat)
    (writes : List WriteResult) : (start fd highWaterMark writes).Inv where
  unqueued := fun _ => rfl
  mapped := by simp [start]
  unset := fun _ => rfl
  waits := by
    intro _ _
    exact ⟨by simp [start], rfl⟩
  undispatched := fun _ => rfl
  allocated := rfl
  unfreed := fun _ _ => rfl
  reads := by
    have unprepared :
        Unprepared (start fd highWaterMark writes).conn :=
      ⟨⟨fd, rfl⟩, rfl, Buffer.new_sound _, Buffer.content_new _, .inl rfl⟩
    exact ⟨[], .nil [], .unqueued unprepared rfl⟩

theorem Unprepared.setContext (unprepared : Unprepared conn) :
    Unprepared { conn with
      link := conn.link.setContext (some .new) } :=
  ⟨unprepared.handler, unprepared.output, unprepared.input_sound,
    unprepared.input_eq, .inr rfl⟩

theorem Reading.setContext (reading : Reading conn pending)
    (unset : conn.link.context = none) :
    Reading { conn with link := conn.link.setContext (some .new) }
      pending := by
  cases reading with
  | waiting steady sound _ content =>
      refine .alive ⟨.new, ⟨steady.of_eq rfl rfl, sound, rfl⟩,
        HttpContext.new_ready, ?_⟩
      rw [← content]
      exact .fresh rfl _
  | alive alive => exact (alive.context_ne unset).elim
  | stuck stuck _ => exact (stuck.context_ne unset).elim

theorem Reading.grown (reading : Reading conn pending) {filled : Buffer}
    {bytes : List Byte} (sound : filled.Sound)
    (content : input (grown conn filled) = input conn ++ bytes) :
    Reading (grown conn filled) (pending ++ bytes) := by
  cases reading with
  | waiting steady _ unset whole =>
      refine .waiting (steady.of_eq rfl rfl) sound unset ?_
      rw [content, whole]
  | alive alive => exact .alive (alive.grown sound content)
  | stuck stuck refused =>
      exact .stuck (stuck.grown sound content) (refused.append bytes)

theorem Reading.input_sound (reading : Reading conn pending) :
    conn.link.inputBuffer.Sound := by
  cases reading with
  | waiting _ sound _ _ => exact sound
  | alive alive => exact alive.input_sound
  | stuck stuck _ => exact stuck.input_sound

theorem Unprepared.prepare (unprepared : Unprepared conn) :
    ∃ link, conn.link.prepare = .ok link ∧ link.state = conn.link.state ∧
      link.context = conn.link.context ∧
      Reading { conn with link } [] := by
  obtain ⟨fd, handler⟩ := unprepared.handler
  let registered : LinkedSocket HttpContext :=
    .registered fd 0 { writes := [], accepted := [] }
  have steady : LinkedSocket.Steady
      { conn.link with handler := registered.handler } := by
    have fresh : registered.Steady := LinkedSocket.registered_steady fd 0 _
    exact fresh.of_eq rfl unprepared.output
  refine ⟨_, LinkedSocket.prepare_of_new handler, rfl, rfl, ?_⟩
  rcases unprepared.context with unset | set
  · exact .waiting steady unprepared.input_sound unset unprepared.input_eq
  · have fresh : Resumes [] .new (input conn) := by
      rw [unprepared.input_eq]
      exact .fresh rfl []
    exact .alive ⟨.new, ⟨steady, unprepared.input_sound, set⟩,
      HttpContext.new_ready, fresh⟩

/-- What a call of `rcvMessage` with a context does to the pending bytes. -/
inductive Passing (conn : HttpConnection) (pending : List Byte)
    (next : HttpConnection) : Prop where
  | complete {final : HttpContext} {rest : List Byte} :
      Parses .new pending .complete final.timeless rest →
      Reading next rest →
      next.dispatched = conn.dispatched ++ [final.request] →
      Passing conn pending next
  | waiting :
      (∀ final rest, ¬ Parses .new pending .complete final rest) →
      Reading next pending →
      next.dispatched = conn.dispatched → Passing conn pending next

theorem Reading.rcvMessage (calm : owner.Calm)
    (reading : Reading conn pending) {receiveTime : Timestamp}
    {after : HttpConnection}
    (received : HttpServer.rcvMessage owner httpCallback conn receiveTime =
      .ok after) :
    (conn.link.context = none ∧ after = conn) ∨
      (conn.link.context ≠ none ∧ after.link.context ≠ none ∧
        Passing conn pending after) := by
  cases reading with
  | waiting _ _ unset _ =>
      simp only [HttpServer.rcvMessage, unset] at received
      cases received
      exact .inl ⟨unset, rfl⟩
  | alive alive =>
      refine .inr ⟨alive.context_ne, ?_⟩
      cases alive.rcvMessage calm received with
      | complete parses aliveNext dispatched =>
          exact ⟨aliveNext.context_ne,
            .complete parses (.alive aliveNext) dispatched⟩
      | waiting notComplete _ aliveNext dispatched =>
          have none : ∀ final rest,
              ¬ Parses .new pending .complete final rest := by
            intro final rest parses
            exact notComplete rest (Parses.complete_iff.mp ⟨final, parses⟩)
          exact ⟨aliveNext.context_ne,
            .waiting none (.alive aliveNext) dispatched⟩
      | refused refused stuck dispatched =>
          have none : ∀ final rest,
              ¬ Parses .new pending .complete final rest := by
            intro final rest parses
            exact refused.not_complete
              (Parses.complete_iff.mp ⟨final, parses⟩)
          exact ⟨stuck.context_ne,
            .waiting none (.stuck stuck refused) dispatched⟩
  | stuck stuck _ =>
      cases (stuck.rcvMessage_error receiveTime).symm.trans received

theorem Inv.allocated_le (inv : state.Inv) : state.allocated ≤ 1 := by
  rw [inv.allocated]
  split <;> simp

theorem Inv.allocated_unset (inv : state.Inv)
    (unset : state.conn.link.context = none) : state.allocated = 0 := by
  rw [inv.allocated, unset]
  rfl

theorem Inv.inserted (inv : state.Inv) (main : state.main = .inserting) :
    Inv { state with main := .queueing, mapped := true } where
  unqueued := fun _ => inv.unqueued (.inl main)
  mapped := fun _ => rfl
  unset := fun _ => inv.unset (by simp [main])
  waits := fun unset opened => ⟨by simp, (inv.waits unset opened).2⟩
  undispatched := inv.undispatched
  allocated := inv.allocated
  unfreed := inv.unfreed
  reads := inv.reads

theorem Inv.queued (inv : state.Inv) (main : state.main = .queueing) :
    Inv { state with main := .finding, io := .queued } := by
  have before : state.io = .unqueued := inv.unqueued (.inr main)
  have opened : state.Open := by simp [Open, before]
  obtain ⟨pending, requests, stage⟩ := inv.reads
  rw [before] at stage
  cases stage with
  | unqueued unprepared nothing =>
      exact
        { unqueued := by simp
          mapped := by simp
          unset := fun _ => inv.unset (by simp [main])
          waits := fun unset _ => ⟨by simp, (inv.waits unset opened).2⟩
          undispatched := inv.undispatched
          allocated := inv.allocated
          unfreed := fun _ _ => inv.unfreed opened.2.1 opened.2.2
          reads := ⟨pending, requests, .queued unprepared nothing⟩ }

theorem Inv.between (inv : state.Inv) (going : state.main ≠ .returned)
    {main : MainPhase} (between : main.Between) {mapped : Bool} :
    Inv { state with main, mapped } where
  unqueued := by cases between <;> simp
  mapped := by cases between <;> simp
  unset := fun _ => inv.unset going
  waits := fun unset opened =>
    ⟨by cases between <;> simp, (inv.waits unset opened).2⟩
  undispatched := inv.undispatched
  allocated := inv.allocated
  unfreed := inv.unfreed
  reads := inv.reads

theorem Inv.unconnected (inv : state.Inv)
    (unconnected : state.conn.link.connected = false) :
    Inv { state with main := .returned } where
  unqueued := by simp
  mapped := by simp
  unset := by simp
  waits := by
    intro unset opened
    have connected := (inv.waits unset opened).2
    cases unconnected.symm.trans connected
  undispatched := inv.undispatched
  allocated := inv.allocated
  unfreed := inv.unfreed
  reads := inv.reads

theorem Stage.setContext {io : IoPhase} (stage : Stage conn pending io)
    (unset : conn.link.context = none) :
    Stage { conn with link := conn.link.setContext (some .new) } pending
      io := by
  cases stage with
  | unqueued unprepared nothing =>
      exact .unqueued unprepared.setContext nothing
  | queued unprepared nothing => exact .queued unprepared.setContext nothing
  | idle reading => exact .idle (reading.setContext unset)
  | received reading => exact .received (reading.setContext unset)
  | closing => exact .closing
  | deleted => exact .deleted
  | closed => exact .closed

theorem Inv.set (inv : state.Inv) (main : state.main = .setting) :
    Inv { state with
      main := .returned
      conn := { state.conn with
        link := state.conn.link.setContext (some .new) }
      allocated := state.allocated + 1 } := by
  have unset : state.conn.link.context = none := inv.unset (by simp [main])
  obtain ⟨pending, requests, stage⟩ := inv.reads
  exact
    { unqueued := by simp
      mapped := by simp
      unset := by simp
      waits := by
        intro impossible
        cases impossible
      undispatched := by
        intro impossible
        cases impossible
      allocated := congrArg Nat.succ (inv.allocated_unset unset)
      unfreed := inv.unfreed
      reads := ⟨pending, requests, stage.setContext unset⟩ }

theorem Inv.newConnection (inv : state.Inv) (mainStep : MainStep state next) :
    next.Inv := by
  cases mainStep with
  | inserted main => exact inv.inserted main
  | queued main => exact inv.queued main
  | between going _ between _ => exact inv.between going between
  | unconnected _ unconnected => exact inv.unconnected unconnected
  | set main => exact inv.set main

/-- What a step of the io thread leaves alone. -/
structure IoStep (state next : ServerThreads) : Prop where
  queued : state.io ≠ .unqueued
  main_eq : next.main = state.main
  allocated_eq : next.allocated = state.allocated
  context_iff : next.conn.link.context = none ↔
    state.conn.link.context = none
  waits : state.conn.link.context = none → next.Open →
    state.Open ∧ next.conn.link.connected = state.conn.link.connected
  dispatched : state.conn.link.context = none →
    next.conn.dispatched = state.conn.dispatched
  unfreed : next.io ≠ .deleted → next.io ≠ .closed → next.freed = 0

theorem Inv.of_io (inv : state.Inv) (ioStep : IoStep state next)
    (reads : ∃ pending,
      Requests next.received
        (next.conn.dispatched.map HttpRequest.timeless) pending ∧
      Stage next.conn pending next.io) : next.Inv where
  unqueued := by
    intro early
    rw [ioStep.main_eq] at early
    exact (ioStep.queued (inv.unqueued early)).elim
  mapped := by
    intro early
    rw [ioStep.main_eq] at early
    exact (ioStep.queued (inv.unqueued (.inr early))).elim
  unset := by
    intro going
    rw [ioStep.main_eq] at going
    exact ioStep.context_iff.mpr (inv.unset going)
  waits := by
    intro unset opened
    have before := ioStep.context_iff.mp unset
    obtain ⟨openedBefore, connected⟩ := ioStep.waits before opened
    rw [ioStep.main_eq, connected]
    exact inv.waits before openedBefore
  undispatched := by
    intro unset
    have before := ioStep.context_iff.mp unset
    rw [ioStep.dispatched before]
    exact inv.undispatched before
  allocated := by
    rw [ioStep.allocated_eq, inv.allocated]
    cases here : state.conn.link.context with
    | none => rw [ioStep.context_iff.mpr here]
    | some context =>
        have set : next.conn.link.context ≠ none := by
          intro unset
          cases here.symm.trans (ioStep.context_iff.mp unset)
        rw [Option.isSome_iff_ne_none.mpr set]
        rfl
  unfreed := ioStep.unfreed
  reads := reads

theorem Inv.prepare (inv : state.Inv) (queued : state.io = .queued)
    (stepped : state.prepare = .ok next) : next.Inv := by
  obtain ⟨pending, requests, stage⟩ := inv.reads
  rw [queued] at stage
  cases stage with
  | queued unprepared nothing =>
      obtain ⟨link, prepared, same, context, reading⟩ := unprepared.prepare
      simp only [ServerThreads.prepare, prepared, ok_bind] at stepped
      cases stepped
      subst nothing
      have opened : state.Open := by simp [Open, queued]
      refine inv.of_io ?_ ⟨[], requests, .idle reading⟩
      exact
        { queued := by simp [queued]
          main_eq := rfl
          allocated_eq := rfl
          context_iff := by rw [context]
          waits := fun _ _ =>
            ⟨opened, congrArg (· == StateE.kConnected) same⟩
          dispatched := fun _ => rfl
          unfreed := fun _ _ => inv.unfreed opened.2.1 opened.2.2 }

theorem Inv.read (inv : state.Inv) (idle : state.io = .idle) {chunk : Chunk}
    (stepped : state.read chunk = .ok next) : next.Inv := by
  obtain ⟨pending, requests, stage⟩ := inv.reads
  rw [idle] at stage
  cases stage with
  | idle reading =>
      obtain ⟨filled, read, becomes⟩ :=
        reading.input_sound.readFd chunk.bytes
      simp only [ServerThreads.read, read, ok_bind] at stepped
      cases stepped
      have opened : state.Open := by simp [Open, idle]
      refine inv.of_io ?_ ⟨pending ++ chunk.bytes, requests.append chunk.bytes,
        .received (reading.grown becomes.sound becomes.content_eq)⟩
      exact
        { queued := by simp [idle]
          main_eq := rfl
          allocated_eq := rfl
          context_iff := Iff.rfl
          waits := fun _ _ => ⟨opened, rfl⟩
          dispatched := fun _ => rfl
          unfreed := fun _ _ => inv.unfreed opened.2.1 opened.2.2 }

theorem received_of_isReceived (due : state.io.isReceived = true) :
    ∃ receiveTime, state.io = .received receiveTime := by
  cases io : state.io with
  | received receiveTime => exact ⟨receiveTime, rfl⟩
  | _ => simp [io, IoPhase.isReceived] at due

theorem rcvMessage_received {receiveTime : Timestamp}
    (due : state.io = .received receiveTime)
    (stepped : state.rcvMessage owner httpCallback = .ok next) :
    ∃ after, HttpServer.rcvMessage owner httpCallback state.conn receiveTime =
        .ok after ∧ next = { state with io := .idle, conn := after } := by
  simp only [ServerThreads.rcvMessage, due] at stepped
  obtain ⟨after, received, same⟩ := bind_eq_ok stepped
  cases same
  exact ⟨after, received, rfl⟩

theorem Inv.rcvMessage (calm : owner.Calm) (inv : state.Inv)
    (due : state.io.isReceived = true)
    (stepped : state.rcvMessage owner httpCallback = .ok next) :
    next.Inv := by
  obtain ⟨receiveTime, io⟩ := received_of_isReceived due
  obtain ⟨after, received, rfl⟩ := rcvMessage_received io stepped
  have opened : state.Open := by simp [Open, io]
  obtain ⟨pending, requests, stage⟩ := inv.reads
  rw [io] at stage
  cases stage with
  | received reading =>
      rcases reading.rcvMessage calm received with
        ⟨unset, rfl⟩ | ⟨set, setAfter, passing⟩
      · refine inv.of_io ?_ ⟨pending, requests, .idle reading⟩
        exact
          { queued := by simp [io]
            main_eq := rfl
            allocated_eq := rfl
            context_iff := Iff.rfl
            waits := fun _ _ => ⟨opened, rfl⟩
            dispatched := fun _ => rfl
            unfreed := fun _ _ => inv.unfreed opened.2.1 opened.2.2 }
      · apply inv.of_io
        · exact
            { queued := by simp [io]
              main_eq := rfl
              allocated_eq := rfl
              context_iff := iff_of_false setAfter set
              waits := fun unset => (set unset).elim
              dispatched := fun unset => (set unset).elim
              unfreed := fun _ _ => inv.unfreed opened.2.1 opened.2.2 }
        · cases passing with
          | @complete final rest parses readingAfter dispatched =>
              refine ⟨rest, ?_, .idle readingAfter⟩
              rw [dispatched, List.map_append]
              exact requests.concat parses
          | waiting _ readingAfter dispatched =>
              refine ⟨pending, ?_, .idle readingAfter⟩
              rw [dispatched]
              exact requests

theorem context_startClose {link after : LinkedSocket HttpContext}
    (closed : link.startClose = .ok after) :
    after.context = link.context := by
  obtain ⟨_, _, updated⟩ := bind_eq_ok closed
  obtain ⟨handler, _, same⟩ := bind_eq_ok updated
  cases same
  rfl

theorem Inv.handleClose (inv : state.Inv) (idle : state.io = .idle)
    (stepped : state.handleClose = .ok next) : next.Inv := by
  obtain ⟨link, closed, same⟩ := bind_eq_ok stepped
  cases same
  obtain ⟨pending, requests, _⟩ := inv.reads
  refine inv.of_io ?_ ⟨pending, requests, .closing⟩
  exact
    { queued := by simp [idle]
      main_eq := rfl
      allocated_eq := rfl
      context_iff := by rw [context_startClose closed]
      waits := fun _ opened => (opened.1 rfl).elim
      dispatched := fun _ => rfl
      unfreed := fun _ _ => inv.unfreed (by simp [idle]) (by simp [idle]) }

theorem Inv.delContext (inv : state.Inv) (closing : state.io = .closing) :
    state.delContext.Inv := by
  obtain ⟨pending, requests, _⟩ := inv.reads
  refine inv.of_io ?_ ⟨pending, requests, .deleted⟩
  exact
    { queued := by simp [closing]
      main_eq := rfl
      allocated_eq := rfl
      context_iff := Iff.rfl
      waits := fun _ opened => (opened.2.1 rfl).elim
      dispatched := fun _ => rfl
      unfreed := fun alive _ => (alive rfl).elim }

theorem Inv.erase (inv : state.Inv) (deleted : state.io = .deleted) :
    state.erase.Inv := by
  obtain ⟨pending, requests, _⟩ := inv.reads
  refine inv.of_io ?_ ⟨pending, requests, .closed⟩
  exact
    { queued := by simp [deleted]
      main_eq := rfl
      allocated_eq := rfl
      context_iff := Iff.rfl
      waits := fun _ opened => (opened.2.2 rfl).elim
      dispatched := fun _ => rfl
      unfreed := fun _ alive => (alive rfl).elim }

theorem Inv.step (calm : owner.Calm) (inv : state.Inv)
    {action : ServerAction}
    (enabled : (machine owner httpCallback).enabled state action)
    (stepped : (machine owner httpCallback).step state action = .ok next) :
    next.Inv := by
  cases action with
  | newConnection =>
      exact inv.newConnection (mainStep_of_newConnection enabled stepped)
  | prepare => exact inv.prepare enabled stepped
  | read chunk => exact inv.read enabled.1 stepped
  | rcvMessage => exact inv.rcvMessage calm enabled stepped
  | handleClose => exact inv.handleClose enabled stepped
  | delContext =>
      cases stepped
      exact inv.delContext enabled
  | erase =>
      cases stepped
      exact inv.erase enabled

end ServerThreads

end Muduo
