import Muduo.Library.Refinement
import Muduo.Net.EventLoopThreadPool
import Muduo.Net.TcpServer

/-!
# A server with a pool of loops

`TcpServer::start` starts the pool once, and `TcpServer::newConnection` gives each
link the loop whose turn it is.
-/

namespace Muduo

open Library

universe u

/-- `started` is `started_`, `ioLoops` are the loops of the links in the order of
their creation. -/
structure PooledServer (Loop : Type u) where
  server : TcpServer
  pool : EventLoopThreadPool Loop
  started : Int
  listening : Bool
  ioLoops : List Loop

/-- The asserts of the server and of its pool, and that of `start`. -/
inductive PooledFault where
  | server (fault : Fault)
  | pool (fault : PoolFault)
  | isListening
  deriving DecidableEq, Repr

/-- `start` comes with whether it is called in the thread of the base loop. -/
inductive PooledAction (Loop : Type u) where
  | start (inLoopThread : Bool) (startLoop : Nat → Loop)
  | server (action : TcpServerAction)

namespace PooledServer

variable {Loop : Type u}

def new (baseLoop : Loop) (threadNum : Int) (name : List Byte)
    (listenAddr : InetAddress) : PooledServer Loop :=
  { server := .new name listenAddr
    pool := .new baseLoop threadNum name
    started := 0
    listening := false
    ioLoops := [] }

/-- `started_.getAndSet(1)` lets only the first call through. -/
def start (state : PooledServer Loop) (inLoopThread : Bool)
    (startLoop : Nat → Loop) : Except PooledFault (PooledServer Loop) :=
  if state.started = 0 then
    match state.pool.start inLoopThread startLoop false with
    | .ok pool =>
        if state.listening then .error .isListening
        else .ok { state with pool, started := 1, listening := true }
    | .error fault => .error (.pool fault)
  else .ok { state with started := 1 }

/-- The acceptor runs in the thread of the base loop. -/
def newConnection (state : PooledServer Loop) :
    Except PooledFault (PooledServer Loop) :=
  match state.pool.getNextLoop true with
  | .ok (ioLoop, pool) =>
      match state.server.newConnection with
      | .ok server =>
          .ok { state with server, pool, ioLoops := state.ioLoops ++ [ioLoop] }
      | .error fault => .error (.server fault)
  | .error fault => .error (.pool fault)

def step (state : PooledServer Loop) :
    PooledAction Loop → Except PooledFault (PooledServer Loop)
  | .start inLoopThread startLoop => state.start inLoopThread startLoop
  | .server .newConnection => state.newConnection
  | .server (.shutdown conn) =>
      .ok { state with server := state.server.setState conn .kDisconnecting }
  | .server (.handleClose conn) =>
      .ok { state with server := state.server.handleClose conn }

/-- The kernel reports connections when the socket listens. -/
def Enabled (state : PooledServer Loop) : PooledAction Loop → Prop
  | .start _ _ => True
  | .server .newConnection =>
      state.listening = true ∧ state.server.Enabled .newConnection
  | .server (.shutdown conn) => state.server.Enabled (.shutdown conn)
  | .server (.handleClose conn) => state.server.Enabled (.handleClose conn)

/-- The call of its pool that the server makes in a step. -/
def poolCall (state : PooledServer Loop) :
    PooledAction Loop → Option (PoolCall Loop × Bool)
  | .start inLoopThread startLoop =>
      if state.started = 0 then some (.start startLoop false, inLoopThread)
      else none
  | .server .newConnection => some (.getNextLoop, true)
  | .server (.shutdown _) | .server (.handleClose _) => none

/-- The calls of its pool that the server makes in a run. -/
def poolCalls (state : PooledServer Loop) (action : PooledAction Loop) :
    List (PoolCall Loop × Bool) :=
  (state.poolCall action).toList

def machine (Loop : Type u) :
    Machine (PooledServer Loop) (PooledAction Loop) PooledFault where
  enabled := Enabled
  step := step

instance (state : PooledServer Loop) (action : PooledAction Loop) :
    Decidable ((machine Loop).enabled state action) :=
  match action with
  | .start _ _ => isTrue trivial
  | .server .newConnection => inferInstanceAs
      (Decidable (state.listening = true ∧ _ < _))
  | .server (.shutdown conn) => inferInstanceAs
      (Decidable (∃ link ∈ state.server.links[conn]?, link.state = .kConnected))
  | .server (.handleClose conn) => inferInstanceAs
      (Decidable
        (∃ link ∈ state.server.links[conn]?, link.state ≠ .kDisconnected))

/-- The links have the loops of the turns taken so far, and the pool is started
with the server, once. -/
structure Spread (state : PooledServer Loop) : Prop where
  turning : state.pool.Turning state.ioLoops
  links : state.ioLoops.length = state.server.links.length
  listening : state.listening = true → state.pool.started = true
  once : state.started = 0 → state.pool.started = false ∧
    state.listening = false
  begun : state.started ≠ 0 → state.pool.started = true

theorem new_spread (baseLoop : Loop) (threadNum : Int) (name : List Byte)
    (listenAddr : InetAddress) :
    (new baseLoop threadNum name listenAddr).Spread where
  turning := EventLoopThreadPool.new_turning baseLoop threadNum name
  links := rfl
  listening listens := by cases listens
  once _ := ⟨rfl, rfl⟩
  begun started := absurd rfl started

theorem length_links_newConnection {server next : TcpServer}
    (stepped : server.newConnection = .ok next) :
    next.links.length = server.links.length + 1 := by
  unfold TcpServer.newConnection at stepped
  obtain ⟨_, _, rest⟩ := bind_eq_ok stepped
  cases Except.ok.inj rest
  simp

theorem length_links_handleClose (server : TcpServer) (conn : Nat) :
    (server.handleClose conn).links.length = server.links.length := by
  unfold TcpServer.handleClose
  cases server.links[conn]? <;>
    simp [TcpServer.delConnection, TcpServer.setState, TcpServer.updateLink]

section Steps

variable {state next : PooledServer Loop}

theorem Spread.start {inLoopThread : Bool} {startLoop : Nat → Loop}
    (spread : state.Spread)
    (stepped : state.start inLoopThread startLoop = .ok next) :
    next.Spread := by
  unfold PooledServer.start at stepped
  split at stepped
  · next first =>
      obtain ⟨fresh, deaf⟩ := spread.once first
      split at stepped
      · next pool started =>
          rw [deaf] at stepped
          cases Except.ok.inj stepped
          have stepped : state.pool.step
              (.start startLoop false, inLoopThread) = .ok pool := started
          have turning := spread.turning.step stepped
          obtain ⟨_, rfl⟩ := EventLoopThreadPool.start_eq spread.turning started
          refine ⟨?_, spread.links, fun _ => rfl, ?_, fun _ => rfl⟩
          · simpa [EventLoopThreadPool.handed] using turning
          · intro zero
            cases zero
      · cases stepped
  · next later =>
      cases Except.ok.inj stepped
      refine ⟨spread.turning, spread.links, spread.listening, ?_,
        fun _ => spread.begun later⟩
      intro zero
      cases zero

theorem Spread.newConnection (spread : state.Spread)
    (listens : state.listening = true)
    (stepped : state.newConnection = .ok next) : next.Spread := by
  have started := spread.listening listens
  obtain ⟨loop, after, result, taken, turn⟩ :=
    EventLoopThreadPool.getNextLoop_eq spread.turning started
  simp only [PooledServer.newConnection, result] at stepped
  split at stepped
  · next server accepted =>
      cases Except.ok.inj stepped
      have moved : state.pool.step (.getNextLoop, true) =
          .ok { state.pool with next := after } := by
        simp [EventLoopThreadPool.step, result, Except.map]
      have turning := spread.turning.step moved
      refine ⟨?_, ?_, fun _ => started, ?_, fun _ => started⟩
      · simpa [EventLoopThreadPool.handed, result] using turning
      · rw [List.length_append, spread.links,
          length_links_newConnection accepted]
        rfl
      · intro first
        have deaf := (spread.once first).2
        rw [listens] at deaf
        cases deaf
  · cases stepped

theorem Spread.step {action : PooledAction Loop} (spread : state.Spread)
    (enabled : state.Enabled action) (stepped : state.step action = .ok next) :
    next.Spread := by
  cases action with
  | start inLoopThread startLoop => exact spread.start stepped
  | server action =>
      cases action with
      | newConnection => exact spread.newConnection enabled.1 stepped
      | shutdown conn =>
          cases Except.ok.inj stepped
          refine ⟨spread.turning, ?_, spread.listening, spread.once,
            spread.begun⟩
          rw [spread.links]
          exact (List.length_modify _ _ _).symm
      | handleClose conn =>
          cases Except.ok.inj stepped
          refine ⟨spread.turning, ?_, spread.listening, spread.once,
            spread.begun⟩
          rw [spread.links]
          exact (length_links_handleClose state.server conn).symm

/-- A step of the server that calls the pool is a step of the pool. -/
theorem refines_pool : (machine Loop).Refines
    (EventLoopThreadPool.machine Loop) Spread PooledServer.pool poolCall := by
  constructor
  · intro state action next spread enabled stepped
    exact spread.step enabled stepped
  · intro state action next spread _ stepped quiet
    cases action with
    | start inLoopThread startLoop =>
        have later : state.started ≠ 0 := by
          intro first
          simp [poolCall, first] at quiet
        have stepped : state.start inLoopThread startLoop = .ok next := stepped
        rw [PooledServer.start, if_neg later] at stepped
        cases Except.ok.inj stepped
        rfl
    | server action =>
        cases action with
        | newConnection => cases quiet
        | shutdown conn =>
            cases Except.ok.inj stepped
            rfl
        | handleClose conn =>
            cases Except.ok.inj stepped
            rfl
  · intro state action next call spread _ stepped called
    refine ⟨trivial, ?_⟩
    cases action with
    | start inLoopThread startLoop =>
        have stepped : state.start inLoopThread startLoop = .ok next := stepped
        by_cases first : state.started = 0
        · simp only [poolCall, if_pos first] at called
          cases Option.some.inj called
          rw [PooledServer.start, if_pos first] at stepped
          split at stepped
          · next pool started =>
              rw [(spread.once first).2] at stepped
              cases Except.ok.inj stepped
              exact started
          · cases stepped
        · simp [poolCall, first] at called
    | server action =>
        cases action with
        | newConnection =>
            cases Option.some.inj called
            have stepped : state.newConnection = .ok next := stepped
            unfold PooledServer.newConnection at stepped
            split at stepped
            · next loop pool result =>
                split at stepped
                · cases Except.ok.inj stepped
                  exact congrArg (Except.map Prod.snd) result
                · cases stepped
            · cases stepped
        | shutdown conn => cases called
        | handleClose conn => cases called

/-- The pool and the listening socket are never misused by the server, unless
it is started outside of the thread of its base loop. -/
theorem Spread.fault {action : PooledAction Loop} {fault : PooledFault}
    (spread : state.Spread) (enabled : state.Enabled action)
    (failed : state.step action = .error fault) :
    (action = .server .newConnection ∧ ∃ cause, fault = .server cause) ∨
    fault = .pool .assertInLoopThread ∧
      ∃ startLoop, action = .start false startLoop := by
  cases action with
  | start inLoopThread startLoop =>
      simp only [PooledServer.step, PooledServer.start] at failed
      split at failed
      · next first =>
          obtain ⟨fresh, deaf⟩ := spread.once first
          split at failed
          · rw [deaf] at failed
            cases failed
          · next cause refused =>
              cases failed
              right
              simp only [EventLoopThreadPool.start, fresh] at refused
              cases inLoopThread with
              | false =>
                  cases refused
                  exact ⟨rfl, startLoop, rfl⟩
              | true =>
                  simp only [Bool.not_true] at refused
                  split at refused
                  · next impossible => cases impossible
                  · split at refused <;> cases refused
      · cases failed
  | server action =>
      cases action with
      | newConnection =>
          have started := spread.listening enabled.1
          obtain ⟨loop, after, result, _⟩ :=
            EventLoopThreadPool.getNextLoop_eq spread.turning started
          simp only [PooledServer.step, PooledServer.newConnection,
            result] at failed
          split at failed
          · cases failed
          · next cause _ =>
              cases failed
              exact .inl ⟨rfl, cause, rfl⟩
      | shutdown conn => cases failed
      | handleClose conn => cases failed

end Steps

theorem started_step {action : PooledAction Loop}
    {state next : PooledServer Loop}
    (stepped : state.step action = .ok next) :
    next.started ≠ 0 ↔ state.started ≠ 0 ∨
      ∃ inLoopThread startLoop, action = .start inLoopThread startLoop := by
  cases action with
  | start inLoopThread startLoop =>
      have one : next.started = 1 := by
        simp only [PooledServer.step, PooledServer.start] at stepped
        split at stepped
        · split at stepped
          · split at stepped
            · cases stepped
            · cases Except.ok.inj stepped
              rfl
          · cases stepped
        · cases Except.ok.inj stepped
          rfl
      simp [one]
  | server action =>
      have same : next.started = state.started := by
        cases action with
        | newConnection =>
            simp only [PooledServer.step, PooledServer.newConnection] at stepped
            split at stepped
            · split at stepped
              · cases Except.ok.inj stepped
                rfl
              · cases stepped
            · cases stepped
        | shutdown conn =>
            cases Except.ok.inj stepped
            rfl
        | handleClose conn =>
            cases Except.ok.inj stepped
            rfl
      simp [same]

/-- `started_` tells whether the server was ever started. -/
theorem started_of_run {baseLoop : Loop} {threadNum : Int} {name : List Byte}
    {listenAddr : InetAddress} {actions : List (PooledAction Loop)}
    {state : PooledServer Loop}
    (run : (machine Loop).Run (new baseLoop threadNum name listenAddr) actions
      state) :
    state.started ≠ 0 ↔ ∃ inLoopThread startLoop,
      .start inLoopThread startLoop ∈ actions := by
  induction run with
  | refl => simp [new]
  | step before enabled stepped induction =>
      rw [started_step stepped, induction]
      simp only [List.mem_append, List.mem_singleton, exists_or, eq_comm]

end PooledServer

end Muduo
