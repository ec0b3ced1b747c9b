import Muduo.Base.Decimal
import Muduo.Library.Machine
import Muduo.Library.RoundRobin

/-!
# Pools of event loop threads

The pool starts its threads once and hands out their loops in turn, or its base
loop if it has no threads.
-/

namespace Muduo

open Library

universe u

/-- The asserts of the pool, its use in another thread than that of the base
loop, and an index that is not in `loops_`. -/
inductive PoolFault where
  | assertInLoopThread
  | start
  | getNextLoop
  | getAllLoops
  | index
  deriving DecidableEq, Repr

/-- `threads_` are known by the names that they were given.  `initialised` are the
loops that the initialisation callback of `start` is run for. -/
structure EventLoopThreadPool (Loop : Type u) where
  baseLoop : Loop
  name : List Byte
  started : Bool
  numThreads : Int
  next : Nat
  threads : List (List Byte)
  loops : List Loop
  initialised : List Loop

namespace EventLoopThreadPool

variable {Loop : Type u}

def new (baseLoop : Loop) (numThreads : Int) (name : List Byte) :
    EventLoopThreadPool Loop :=
  { baseLoop, name, started := false, numThreads, next := 0, threads := []
    loops := [], initialised := [] }

/-- What `snprintf` leaves in `buf`, which has room for 32 bytes more than the
name of the pool, less the final zero.  A zero byte ends the name for `%s`. -/
def threadName (name : List Byte) (i : Nat) : List Byte :=
  (name.takeWhile (· ≠ 0) ++ ascii (toString i)).take (name.length + 31)

/-- The first rounds of the loop in `start`.  `startLoop` tells the loop that each
new thread comes with. -/
def startThreads (pool : EventLoopThreadPool Loop) (startLoop : Nat → Loop)
    (cb : Bool) : Nat → EventLoopThreadPool Loop
  | 0 => pool
  | i + 1 =>
      let pool := startThreads pool startLoop cb i
      { pool with
        threads := pool.threads ++ [threadName pool.name i]
        loops := pool.loops ++ [startLoop i]
        initialised :=
          if cb then pool.initialised ++ [startLoop i] else pool.initialised }

def start (pool : EventLoopThreadPool Loop) (inLoopThread : Bool)
    (startLoop : Nat → Loop) (cb : Bool) :
    Except PoolFault (EventLoopThreadPool Loop) :=
  if pool.started then .error .start
  else if !inLoopThread then .error .assertInLoopThread
  else
    let pool := { pool with started := true }
    let pool := pool.startThreads startLoop cb pool.numThreads.toNat
    if pool.numThreads = 0 ∧ cb = true then
      .ok { pool with initialised := pool.initialised ++ [pool.baseLoop] }
    else .ok pool

def getNextLoop (pool : EventLoopThreadPool Loop) (inLoopThread : Bool) :
    Except PoolFault (Loop × EventLoopThreadPool Loop) :=
  if !inLoopThread then .error .assertInLoopThread
  else if !pool.started then .error .getNextLoop
  else if pool.loops.isEmpty then .ok (pool.baseLoop, pool)
  else
    match pool.loops[pool.next]? with
    | some loop =>
        let next := pool.next + 1
        .ok (loop,
          { pool with next := if next ≥ pool.loops.length then 0 else next })
    | none => .error .index

def getLoopForHash (pool : EventLoopThreadPool Loop) (inLoopThread : Bool)
    (hashCode : Nat) : Except PoolFault Loop :=
  if !inLoopThread then .error .assertInLoopThread
  else if pool.loops.isEmpty then .ok pool.baseLoop
  else
    match pool.loops[hashCode % pool.loops.length]? with
    | some loop => .ok loop
    | none => .error .index

def getAllLoops (pool : EventLoopThreadPool Loop) (inLoopThread : Bool) :
    Except PoolFault (List Loop) :=
  if !inLoopThread then .error .assertInLoopThread
  else if !pool.started then .error .getAllLoops
  else if pool.loops.isEmpty then .ok [pool.baseLoop]
  else .ok pool.loops

end EventLoopThreadPool

inductive PoolCall (Loop : Type u) where
  | start (startLoop : Nat → Loop) (cb : Bool)
  | getNextLoop
  | getLoopForHash (hashCode : Nat)
  | getAllLoops

namespace EventLoopThreadPool

variable {Loop : Type u}

/-- A call, with whether it is made in the thread of the base loop. -/
def step (pool : EventLoopThreadPool Loop) :
    PoolCall Loop × Bool → Except PoolFault (EventLoopThreadPool Loop)
  | (.start startLoop cb, inLoopThread) => pool.start inLoopThread startLoop cb
  | (.getNextLoop, inLoopThread) =>
      (pool.getNextLoop inLoopThread).map Prod.snd
  | (.getLoopForHash hashCode, inLoopThread) =>
      (pool.getLoopForHash inLoopThread hashCode).map fun _ => pool
  | (.getAllLoops, inLoopThread) =>
      (pool.getAllLoops inLoopThread).map fun _ => pool

def machine (Loop : Type u) :
    Machine (EventLoopThreadPool Loop) (PoolCall Loop × Bool) PoolFault where
  enabled _ _ := True
  step := step

instance (pool : EventLoopThreadPool Loop) (call : PoolCall Loop × Bool) :
    Decidable ((machine Loop).enabled pool call) :=
  isTrue trivial

/-- A call of `start`. -/
def starts : PoolCall Loop × Bool → Bool
  | (.start _ _, _) => true
  | (.getNextLoop, _) | (.getLoopForHash _, _) | (.getAllLoops, _) => false

/-- The loops that `getNextLoop` hands out. -/
def handed (pool : EventLoopThreadPool Loop) :
    PoolCall Loop × Bool → List Loop
  | (.getNextLoop, inLoopThread) =>
      match pool.getNextLoop inLoopThread with
      | .ok (loop, _) => [loop]
      | .error _ => []
  | (.start _ _, _) | (.getLoopForHash _, _) | (.getAllLoops, _) => []

/-- A call before `start`, a second `start`, or one in another thread. -/
def Misused (pool : EventLoopThreadPool Loop) :
    PoolCall Loop × Bool → Prop
  | (.start _ _, inLoopThread) => pool.started = true ∨ inLoopThread = false
  | (.getNextLoop, inLoopThread) | (.getAllLoops, inLoopThread) =>
      pool.started = false ∨ inLoopThread = false
  | (.getLoopForHash _, inLoopThread) => inLoopThread = false

/-- The loops that serve. -/
def serving (pool : EventLoopThreadPool Loop) : List Loop :=
  if pool.loops.isEmpty then [pool.baseLoop] else pool.loops

theorem serving_ne_nil (pool : EventLoopThreadPool Loop) :
    pool.serving ≠ [] := by
  unfold serving
  split
  · simp
  · next some => simpa using some

/-- The loop in `start` makes one thread and one loop in each round. -/
theorem startThreads_eq (pool : EventLoopThreadPool Loop)
    (startLoop : Nat → Loop) (cb : Bool) (fresh : pool.threads = [])
    (none : pool.loops = []) (quiet : pool.initialised = []) (count : Nat) :
    pool.startThreads startLoop cb count =
      { pool with
        threads := (List.range count).map (threadName pool.name)
        loops := (List.range count).map startLoop
        initialised :=
          if cb then (List.range count).map startLoop else [] } := by
  induction count with
  | zero =>
      obtain ⟨_, _, _, _, _, _, _, _⟩ := pool
      cases fresh
      cases none
      cases quiet
      cases cb <;> rfl
  | succ count induction =>
      rw [startThreads, induction]
      cases cb <;> simp [List.range_succ]

/-- A thread's name takes the number whole, as it has at most ten digits. -/
theorem threadName_eq {name : List Byte} {i : Nat} (bound : i < 2147483648) :
    threadName name i = name.takeWhile (· ≠ 0) ++ ascii (toString i) := by
  have short : (ascii (toString i)).length ≤ 10 :=
    length_toString_le (by decide) (by omega)
  have begins := (name.takeWhile_prefix (· ≠ 0)).length_le
  apply List.take_of_length_le
  rw [List.length_append]
  omega

/-- Until `start` there is nothing, and from then on `next_` tells whose turn it
is. -/
structure Turning (pool : EventLoopThreadPool Loop) (handed : List Loop) :
    Prop where
  idle : pool.started = false → pool.threads = [] ∧ pool.loops = [] ∧
    pool.initialised = [] ∧ handed = []
  made : pool.started = true → pool.loops.length = pool.numThreads.toNat ∧
    pool.threads =
      (List.range pool.numThreads.toNat).map (threadName pool.name)
  turns : handed = cycle pool.serving handed.length
  next : pool.loops = [] ∧ pool.next = 0 ∨
    pool.loops ≠ [] ∧ pool.next = handed.length % pool.loops.length

theorem new_turning (baseLoop : Loop) (numThreads : Int) (name : List Byte) :
    (new baseLoop numThreads name).Turning [] where
  idle _ := ⟨rfl, rfl, rfl, rfl⟩
  made started := by cases started
  turns := rfl
  next := .inl ⟨rfl, rfl⟩

section Steps

variable {pool next : EventLoopThreadPool Loop} {before : List Loop}

theorem start_eq {inLoopThread : Bool} {startLoop : Nat → Loop} {cb : Bool}
    (turning : pool.Turning before)
    (started : pool.start inLoopThread startLoop cb = .ok next) :
    pool.started = false ∧ next =
      { pool with
        started := true
        threads := (List.range pool.numThreads.toNat).map (threadName pool.name)
        loops := (List.range pool.numThreads.toNat).map startLoop
        initialised :=
          if cb then
            if pool.numThreads = 0 then [pool.baseLoop]
            else (List.range pool.numThreads.toNat).map startLoop
          else [] } := by
  unfold start at started
  split at started
  · cases started
  · next fresh =>
      have idle := Bool.eq_false_iff.mpr fresh
      obtain ⟨threads, loops, quiet, _⟩ := turning.idle idle
      refine ⟨idle, ?_⟩
      split at started
      · cases started
      · have many := startThreads_eq { pool with started := true } startLoop cb
          threads loops quiet pool.numThreads.toNat
        simp only [many] at started
        split at started
        · next none =>
            obtain ⟨zero, rfl⟩ := none
            cases Except.ok.inj started
            simp [zero]
        · next some =>
            cases Except.ok.inj started
            cases cb with
            | false => rfl
            | true =>
                have zero : pool.numThreads ≠ 0 := by
                  intro zero
                  exact some ⟨zero, rfl⟩
                simp [zero]

/-- The loop whose turn it is, and what handing it out leaves. -/
theorem getNextLoop_eq (turning : pool.Turning before)
    (started : pool.started = true) :
    ∃ loop after, pool.getNextLoop true =
        .ok (loop, { pool with next := after }) ∧
      pool.serving[before.length % pool.serving.length]? = some loop ∧
      (pool.loops = [] ∧ after = 0 ∨ pool.loops ≠ [] ∧
        after = (before.length + 1) % pool.loops.length) := by
  rcases turning.next with ⟨none, zero⟩ | ⟨some, turn⟩
  · refine ⟨pool.baseLoop, pool.next, ?_, ?_, .inl ⟨none, zero⟩⟩
    · have quiet : pool.getNextLoop true = .ok (pool.baseLoop, pool) := by
        simp [getNextLoop, started, none]
      exact quiet
    · simp [serving, none, Nat.mod_one]
  · obtain ⟨loop, taken⟩ := exists_turn some before.length
    have positive := List.length_pos_of_ne_nil some
    have serves : pool.serving = pool.loops := by simp [serving, some]
    rw [serves]
    refine ⟨loop, (before.length + 1) % pool.loops.length, ?_, taken,
      .inr ⟨some, rfl⟩⟩
    have here : pool.loops[pool.next]? = .some loop := by
      rw [turn]
      exact taken
    have inside := Nat.mod_lt before.length positive
    have after : (if pool.next + 1 ≥ pool.loops.length then 0
        else pool.next + 1) = (before.length + 1) % pool.loops.length := by
      rw [turn, ← Nat.mod_add_mod]
      split
      · next last =>
          have whole : before.length % pool.loops.length + 1 =
              pool.loops.length := by omega
          rw [whole, Nat.mod_self]
      · next more => exact (Nat.mod_eq_of_lt (by omega)).symm
    simp [getNextLoop, started, some, here, after]

theorem getAllLoops_eq (started : pool.started = true) :
    pool.getAllLoops true = .ok pool.serving := by
  unfold getAllLoops serving
  by_cases none : pool.loops.isEmpty = true
  · simp [started, none]
  · simp [started, none]

theorem getLoopForHash_eq (pool : EventLoopThreadPool Loop) (hashCode : Nat) :
    ∃ loop, pool.getLoopForHash true hashCode = .ok loop ∧
      pool.serving[hashCode % pool.serving.length]? = some loop := by
  obtain ⟨loop, taken⟩ := exists_turn pool.serving_ne_nil hashCode
  refine ⟨loop, ?_, taken⟩
  unfold getLoopForHash
  by_cases none : pool.loops.isEmpty = true
  · have base : pool.serving = [pool.baseLoop] := by simp [serving, none]
    rw [base] at taken
    simp only [List.length_singleton, Nat.mod_one] at taken
    simpa [none] using Option.some.inj taken
  · have serves : pool.serving = pool.loops := by simp [serving, none]
    rw [serves] at taken
    simp [none, taken]

theorem map_const_eq {Value : Type u} {result : Except PoolFault Value}
    (stepped : (result.map fun _ => pool) = .ok next) : next = pool := by
  cases result with
  | ok value => exact (Except.ok.inj stepped).symm
  | error fault => cases stepped

theorem started_getNextLoop {inLoopThread : Bool} {loop : Loop}
    (result : pool.getNextLoop inLoopThread = .ok (loop, next)) :
    next.started = pool.started := by
  unfold getNextLoop at result
  split at result
  · cases result
  · split at result
    · cases result
    · split at result
      · cases Except.ok.inj result
        rfl
      · split at result
        · cases Except.ok.inj result
          rfl
        · cases result

theorem Turning.step {call : PoolCall Loop × Bool}
    (turning : pool.Turning before) (stepped : pool.step call = .ok next) :
    next.Turning (before ++ pool.handed call) := by
  obtain ⟨call, inLoopThread⟩ := call
  cases call with
  | start startLoop cb =>
      obtain ⟨fresh, rfl⟩ := start_eq turning stepped
      obtain ⟨_, _, _, none⟩ := turning.idle fresh
      subst none
      refine ⟨?_, ?_, rfl, ?_⟩
      · intro idle
        cases idle
      · intro _
        simp
      · have zero : pool.next = 0 := by
          rcases turning.next with ⟨_, zero⟩ | ⟨some, _⟩
          · exact zero
          · exact absurd (turning.idle fresh).2.1 some
        cases count : pool.numThreads.toNat with
        | zero => exact .inl ⟨rfl, zero⟩
        | succ more => exact .inr ⟨by simp, by simp [zero, handed]⟩
  | getNextLoop =>
      cases inLoopThread with
      | false => simp [EventLoopThreadPool.step, getNextLoop, Except.map] at stepped
      | true =>
          cases started : pool.started with
          | false =>
              simp [EventLoopThreadPool.step, getNextLoop, started,
                Except.map] at stepped
          | true =>
              obtain ⟨loop, after, result, taken, turn⟩ :=
                getNextLoop_eq turning started
              have events : pool.handed (.getNextLoop, true) = [loop] := by
                simp [handed, result]
              simp only [EventLoopThreadPool.step, result] at stepped
              cases Except.ok.inj stepped
              rw [events]
              refine ⟨?_, turning.made, ?_, ?_⟩
              · intro idle
                rw [started] at idle
                cases idle
              · rw [List.length_append, List.length_singleton, cycle_succ]
                have same : ({ pool with next := after }).serving =
                    pool.serving := rfl
                rw [same, taken, ← turning.turns]
                rfl
              · rw [List.length_append, List.length_singleton]
                exact turn
  | getLoopForHash hashCode =>
      rw [map_const_eq stepped]
      simpa [handed] using turning
  | getAllLoops =>
      rw [map_const_eq stepped]
      simpa [handed] using turning

/-- `started_` is set by `start`, which runs only when it is not. -/
theorem started_step {call : PoolCall Loop × Bool}
    (turning : pool.Turning before) (stepped : pool.step call = .ok next) :
    next.started.toNat = pool.started.toNat + [call].countP starts := by
  obtain ⟨call, inLoopThread⟩ := call
  cases call with
  | start startLoop cb =>
      obtain ⟨fresh, rfl⟩ := start_eq turning stepped
      rw [fresh]
      rfl
  | getNextLoop =>
      cases result : pool.getNextLoop inLoopThread with
      | error fault =>
          simp [EventLoopThreadPool.step, result, Except.map] at stepped
      | ok handed =>
          obtain ⟨loop, after⟩ := handed
          simp only [EventLoopThreadPool.step, result] at stepped
          cases Except.ok.inj stepped
          rw [started_getNextLoop result]
          rfl
  | getLoopForHash hashCode =>
      rw [map_const_eq stepped]
      rfl
  | getAllLoops =>
      rw [map_const_eq stepped]
      rfl

/-- Only misuse fails: the turn never leaves `loops_`. -/
theorem Turning.fault {call : PoolCall Loop × Bool} {fault : PoolFault}
    (turning : pool.Turning before) (failed : pool.step call = .error fault) :
    pool.Misused call := by
  obtain ⟨call, inLoopThread⟩ := call
  cases inLoopThread with
  | false => cases call <;> simp [Misused]
  | true =>
      cases call with
      | start startLoop cb =>
          cases started : pool.started with
          | true => exact .inl started
          | false =>
              simp only [EventLoopThreadPool.step, start, started] at failed
              split at failed
              · next impossible => cases impossible
              · split at failed
                · next impossible => cases impossible
                · split at failed <;> cases failed
      | getNextLoop =>
          cases started : pool.started with
          | false => exact .inl started
          | true =>
              obtain ⟨loop, after, result, _⟩ := getNextLoop_eq turning started
              simp [EventLoopThreadPool.step, result, Except.map] at failed
      | getLoopForHash hashCode =>
          obtain ⟨loop, result, _⟩ := getLoopForHash_eq pool hashCode
          simp [EventLoopThreadPool.step, result, Except.map] at failed
      | getAllLoops =>
          cases started : pool.started with
          | false => exact .inl started
          | true =>
              simp [EventLoopThreadPool.step, getAllLoops_eq started,
                Except.map] at failed

end Steps

section Runs

variable {pool : EventLoopThreadPool Loop}
variable {calls : List (PoolCall Loop × Bool)}
variable {baseLoop : Loop} {numThreads : Int} {name : List Byte}

theorem run_turning
    (run : (machine Loop).Run (new baseLoop numThreads name) calls pool) :
    pool.Turning
      ((machine Loop).observed handed (new baseLoop numThreads name) calls) := by
  induction run with
  | refl => exact new_turning baseLoop numThreads name
  | step before enabled stepped induction =>
      rw [before.observed_concat stepped]
      exact induction.step stepped

/-- No run starts a pool twice. -/
theorem run_starts
    (run : (machine Loop).Run (new baseLoop numThreads name) calls pool) :
    pool.started.toNat = calls.countP starts := by
  induction run with
  | refl => rfl
  | step before enabled stepped induction =>
      rw [started_step (run_turning before) stepped, induction,
        List.countP_append]

/-- `start` makes the threads that it was told to, named by their numbers. -/
theorem run_threads
    (run : (machine Loop).Run (new baseLoop numThreads name) calls pool)
    (started : pool.started = true) (bound : pool.numThreads ≤ 2147483647) :
    pool.loops.length = pool.numThreads.toNat ∧
    pool.threads = (List.range pool.numThreads.toNat).map
      fun i => pool.name.takeWhile (· ≠ 0) ++ ascii (toString i) := by
  obtain ⟨loops, threads⟩ := (run_turning run).made started
  refine ⟨loops, ?_⟩
  rw [threads]
  apply List.map_congr_left
  intro i member
  have inside := List.mem_range.mp member
  exact threadName_eq (by omega)

/-- In every run the loops that `getAllLoops` tells are handed out in turn, so that
none of them gets two more turns than another, the other calls do not disturb the
turns, a hash always selects the same of these loops, and only misuse fails. -/
theorem run_pool [DecidableEq Loop]
    (run : (machine Loop).Run (new baseLoop numThreads name) calls pool) :
    (∃ count, (machine Loop).observed handed (new baseLoop numThreads name)
        calls = cycle pool.serving count) ∧
    (pool.serving.Nodup →
      ∀ first ∈ pool.serving, ∀ second ∈ pool.serving,
      ((machine Loop).observed handed (new baseLoop numThreads name)
          calls).count first ≤
        ((machine Loop).observed handed (new baseLoop numThreads name)
          calls).count second + 1) ∧
    (pool.started = true → pool.getAllLoops true = .ok pool.serving) ∧
    (∀ hashCode, ∃ loop, pool.getLoopForHash true hashCode = .ok loop ∧
      pool.serving[hashCode % pool.serving.length]? = some loop) ∧
    (∀ call fault, pool.step call = .error fault → pool.Misused call) := by
  have turning := run_turning run
  refine ⟨⟨_, turning.turns⟩, ?_, getAllLoops_eq, getLoopForHash_eq pool, ?_⟩
  · intro distinct first one second other
    rw [turning.turns]
    exact count_cycle_le distinct one other _
  · intro call fault failed
    exact turning.fault failed

/-- Two threads take turns, and a second hash call comes in between. -/
theorem pool_turns : ∃ pool : EventLoopThreadPool Nat,
    (∃ count, ([10, 11, 10] : List Nat) = cycle pool.serving count) ∧
    (pool.serving.Nodup → ∀ first ∈ pool.serving, ∀ second ∈ pool.serving,
      ([10, 11, 10] : List Nat).count first ≤
        ([10, 11, 10] : List Nat).count second + 1) ∧
    pool.serving = [10, 11] := by
  have found : ((machine Nat).execute (new 7 2 (ascii "io"))
      [(.start (fun i => 10 + i) false, true), (.getNextLoop, true),
        (.getLoopForHash 5, true), (.getNextLoop, true), (.getAllLoops, true),
        (.getNextLoop, true)]).any
      (fun pool => pool.serving = [10, 11]) = true := by
    decide +kernel
  obtain ⟨pool, run, reached⟩ := Machine.run_of_execute found
  obtain ⟨turns, fair, _⟩ := run_pool run
  exact ⟨pool, turns, fair, of_decide_eq_true reached⟩

end Runs

end EventLoopThreadPool

end Muduo
