import Muduo.Library.MonitorHistory
import Muduo.Library.MonitorWakeups

/-!
# Blocking queues and latches

`BlockingQueue` and `CountDownLatch` are monitors: every function takes the lock,
`take` and `wait` wait in a loop on the condition variable.
-/

namespace Muduo

open Library

universe t u

section BlockingQueue

inductive QueueCall (Item : Type u) where
  | put (item : Item)
  | take
  | size
  deriving DecidableEq, Repr

inductive QueueResult (Item : Type u) where
  | done
  | item (item : Item)
  | size (size : Nat)
  deriving DecidableEq, Repr

/-- The assert of `take`. -/
inductive QueueFault where
  | take
  deriving DecidableEq, Repr

/-- The value is `queue_`, from its front. -/
def BlockingQueue (Item : Type u) :
    Monitor (List Item) (QueueCall Item) (QueueResult Item) QueueFault where
  ready queue
    | .take => !queue.isEmpty
    | .put _ | .size => true
  perform queue
    | .put item =>
        .ok { value := queue ++ [item], result := .done, notice := .one }
    | .take =>
        match queue with
        | [] => .error .take
        | front :: rest =>
            .ok { value := rest, result := .item front, notice := .nobody }
    | .size =>
        .ok { value := queue, result := .size queue.length, notice := .nobody }

namespace BlockingQueue

variable {Item : Type u}

/-- What a call added to the queue. -/
def putItem : QueueCall Item × QueueResult Item → Option Item
  | (.put item, _) => some item
  | (.take, _) | (.size, _) => none

/-- What a call took from the queue. -/
def takenItem : QueueCall Item × QueueResult Item → Option Item
  | (.take, .item item) => some item
  | (.take, .done) | (.take, .size _) | (.put _, _) | (.size, _) => none

def puts {Thread : Type t}
    (history : List (Thread × QueueCall Item × QueueResult Item)) : List Item :=
  (history.map Prod.snd).filterMap putItem

def takes {Thread : Type t}
    (history : List (Thread × QueueCall Item × QueueResult Item)) : List Item :=
  (history.map Prod.snd).filterMap takenItem

def waits : QueueCall Item → Bool
  | .take => true
  | .put _ | .size => false

/-- Every item that was put in was taken out, in order, or is still there. -/
theorem performs_fifo {start queue : List Item}
    {history : List (QueueCall Item × QueueResult Item)}
    (performs : (BlockingQueue Item).Performs start history queue) :
    start ++ history.filterMap putItem =
      history.filterMap takenItem ++ queue := by
  induction performs with
  | refl => simp
  | @step history queue call work _ ready performed induction =>
      rw [List.filterMap_append, List.filterMap_append, ← List.append_assoc,
        induction]
      cases call with
      | put item =>
          cases Except.ok.inj performed
          simp [List.filterMap_cons, putItem, takenItem]
      | size =>
          cases Except.ok.inj performed
          simp [List.filterMap_cons, putItem, takenItem]
      | take =>
          cases queue with
          | nil => cases performed
          | cons front rest =>
              cases Except.ok.inj performed
              simp [List.filterMap_cons, putItem, takenItem]

/-- The assert of `take` holds: the loop before it has just found an item. -/
theorem perform_ok {queue : List Item} {call : QueueCall Item}
    (ready : (BlockingQueue Item).ready queue call = true) :
    ∃ work, (BlockingQueue Item).perform queue call = .ok work := by
  cases call with
  | put item => exact ⟨_, rfl⟩
  | size => exact ⟨_, rfl⟩
  | take =>
      cases queue with
      | nil => cases ready
      | cons front rest => exact ⟨_, rfl⟩

theorem discipline : (BlockingQueue Item).Discipline
    (fun queue => (queue.length : ℕ∞)) waits := by
  constructor
  · intro queue call
    cases call with
    | put item => simp [BlockingQueue, waits]
    | size => simp [BlockingQueue, waits]
    | take => cases queue <;> simp [BlockingQueue, waits]
  · intro queue call work ready performed
    cases call with
    | put item =>
        cases Except.ok.inj performed
        simp [waits, Monitor.cost, Notice.reach]
    | size =>
        cases Except.ok.inj performed
        simp [waits, Monitor.cost, Notice.reach]
    | take =>
        cases queue with
        | nil => cases ready
        | cons front rest =>
            cases Except.ok.inj performed
            simp [waits, Monitor.cost, Notice.reach]

/-- A queue and the threads that call it. -/
abbrev Threads (Thread : Type t) (Item : Type u) :=
  Monitor.State Thread (List Item) (QueueCall Item) (QueueResult Item)

section Runs

variable {Thread : Type t} [DecidableEq Thread]
variable {state : Threads Thread Item}
variable {actions : List (Monitor.Action Thread (QueueCall Item))}

omit [DecidableEq Thread] in
theorem mem_bound_waits {thread : Thread} :
    thread ∈ Monitor.bound waits state ↔
      (state.place thread).awake = some .take := by
  constructor
  · rintro ⟨call, awake, due⟩
    cases call with
    | take => exact awake
    | put item => cases due
    | size => cases due
  · intro awake
    exact ⟨.take, awake, rfl⟩

/-- In every run of `put`, `take` and `size` by any number of threads the calls
take effect one after the other, each when its thread does its work under the
lock; what was put is what was taken followed by what is there, and the assert of
`take` holds. -/
theorem run_delivers :
    (∀ actions (state : Threads Thread Item),
      (BlockingQueue Item).machine.Run (.new []) actions state →
      (BlockingQueue Item).Linearized []
        ((BlockingQueue Item).machine.observed Monitor.made (.new []) actions)
        ((BlockingQueue Item).machine.observed (BlockingQueue Item).performs
          (.new []) actions)
        ((BlockingQueue Item).machine.observed Monitor.returned (.new [])
          actions)
        state ∧
      puts ((BlockingQueue Item).machine.observed (BlockingQueue Item).performs
          (.new []) actions) =
        takes ((BlockingQueue Item).machine.observed
          (BlockingQueue Item).performs (.new []) actions) ++ state.value) ∧
    (BlockingQueue Item).machine.Safe
      (.new [] : Threads Thread Item) := by
  constructor
  · intro actions state run
    have linearized := Monitor.run_linearized run
    refine ⟨linearized, ?_⟩
    simpa [puts, takes] using performs_fifo linearized.legal
  · exact Monitor.safe_of_perform fun _ _ => perform_ok

/-- A `take` comes first, sleeps, and gets what is put later. -/
theorem take_delivers : ∃ state : Threads (Fin 2) Nat,
    (BlockingQueue Nat).Linearized []
      [(0, .take), (1, .put 7)] [(1, .put 7, .done), (0, .take, .item 7)]
      [(1, .put 7, .done)] state ∧
    [7] = [7] ++ state.value ∧
    (state.place 0).performed = some (.take, .item 7) := by
  have found : ((BlockingQueue Nat).machine.execute
      (.new [] : Threads (Fin 2) Nat)
      [.call 0 .take, .lock 0, .test 0 none, .call 1 (.put 7), .lock 1,
        .test 1 (some 0), .unlock 1, .lock 0, .test 0 none]).any
      (fun state => (state.place 0).performed = some (.take, .item 7)) =
        true := by
    decide +kernel
  obtain ⟨state, run, reached⟩ := Machine.run_of_execute found
  obtain ⟨linearized, delivered⟩ := run_delivers.1 _ state run
  exact ⟨state, linearized, delivered, of_decide_eq_true reached⟩

/-- While a thread sleeps in `take`, every item is spoken for by a `take` that is
awake; a queue whose threads are all asleep is empty. -/
theorem run_wakes
    (run : (BlockingQueue Item).machine.Run (.new []) actions state) :
    ((∃ thread, (state.place thread).asleep = true) →
      (state.value.length : ℕ∞) ≤
        { thread | (state.place thread).awake = some .take }.encard) ∧
    ((BlockingQueue Item).Stuck state → ∀ thread,
      state.place thread = .outside ∨
      state.place thread = .waiting .take ∧ state.value = []) := by
  have served := Monitor.run_served discipline run
  constructor
  · intro sleeps
    have takers : { thread | (state.place thread).awake = some .take } =
        Monitor.bound waits state :=
      Set.ext fun thread => mem_bound_waits.symm
    rw [takers]
    exact served.spoken sleeps
  · intro stuck thread
    rcases stuck.still (Monitor.run_exclusive run) thread with place | waiting
    · exact .inl place
    · obtain ⟨call, waiting⟩ := waiting
      have unready := stuck.unready discipline run waiting
      have due := served.patient thread call waiting
      cases call with
      | take =>
          refine .inr ⟨waiting, ?_⟩
          simpa [BlockingQueue] using unready
      | put item => cases due
      | size => cases due

/-- One thread sleeps in `take` and the other has put nothing. -/
theorem take_sleeps : ∃ state : Threads (Fin 2) Nat,
    (BlockingQueue Nat).Stuck state ∧
    (state.place 0).asleep = true ∧
    (state.value.length : ℕ∞) ≤
      { thread | (state.place thread).awake = some .take }.encard ∧
    ∀ thread, state.place thread = .outside ∨
      state.place thread = .waiting .take ∧ state.value = [] := by
  have found : ((BlockingQueue Nat).machine.execute
      (.new [] : Threads (Fin 2) Nat)
      [.call 0 .take, .lock 0, .test 0 none]).any
      (fun state => (BlockingQueue Nat).Stuck state ∧
        (state.place 0).asleep = true) = true := by
    decide +kernel
  obtain ⟨state, run, reached⟩ := Machine.run_of_execute found
  obtain ⟨stuck, asleep⟩ := of_decide_eq_true reached
  obtain ⟨spoken, empty⟩ := run_wakes run
  exact ⟨state, stuck, asleep, spoken ⟨0, asleep⟩, empty stuck⟩

end Runs

end BlockingQueue

end BlockingQueue

section CountDownLatch

inductive LatchCall where
  | wait
  | countDown
  | getCount
  deriving DecidableEq, Repr

inductive LatchResult where
  | done
  | count (count : Int)
  deriving DecidableEq, Repr

/-- `--count_` below the least `int`. -/
inductive LatchFault where
  | countDown
  deriving DecidableEq, Repr

/-- The value is `count_`. -/
def CountDownLatch : Monitor Int LatchCall LatchResult LatchFault where
  ready count
    | .wait => !decide (count > 0)
    | .countDown | .getCount => true
  perform count
    | .wait => .ok { value := count, result := .done, notice := .nobody }
    | .countDown =>
        if -2147483648 ≤ count - 1 then
          .ok {
            value := count - 1
            result := .done
            notice := if count - 1 = 0 then .all else .nobody }
        else .error .countDown
    | .getCount =>
        .ok { value := count, result := .count count, notice := .nobody }

namespace CountDownLatch

def waits : LatchCall → Bool
  | .wait => true
  | .countDown | .getCount => false

/-- Once the count is down, everybody who waits may go on. -/
def available (count : Int) : ℕ∞ :=
  if count > 0 then 0 else ⊤

theorem discipline : CountDownLatch.Discipline available waits := by
  constructor
  · intro count call
    cases call with
    | wait =>
        by_cases left : count > 0 <;>
          simp [CountDownLatch, waits, available, left]
    | countDown => simp [CountDownLatch, waits]
    | getCount => simp [CountDownLatch, waits]
  · intro count call work ready performed
    cases call with
    | wait =>
        cases Except.ok.inj performed
        have down : ¬ count > 0 := by simpa [CountDownLatch] using ready
        simp [available, down]
    | getCount =>
        cases Except.ok.inj performed
        simp [waits, Monitor.cost, Notice.reach]
    | countDown =>
        simp only [CountDownLatch] at performed
        split at performed
        · cases Except.ok.inj performed
          by_cases down : count - 1 = 0
          · simp [down, Notice.reach]
          · by_cases left : count - 1 > 0
            · have shut : available (count - 1) = 0 := if_pos left
              simp [shut, waits, Monitor.cost]
            · have past : available count = ⊤ := if_neg (by omega)
              simp [past]
        · cases performed

/-- How often the latch was counted down. -/
def countDowns (history : List (LatchCall × LatchResult)) : Nat :=
  history.countP fun event => event.1 = .countDown

theorem performs_count {start count : Int}
    {history : List (LatchCall × LatchResult)}
    (performs : CountDownLatch.Performs start history count) :
    count + countDowns history = start := by
  induction performs with
  | refl => simp [countDowns]
  | @step history count call work _ ready performed induction =>
      have more : countDowns (history ++ [(call, work.result)]) =
          countDowns history + countDowns [(call, work.result)] :=
        List.countP_append
      rw [more]
      cases call with
      | wait =>
          cases Except.ok.inj performed
          simpa [countDowns] using induction
      | getCount =>
          cases Except.ok.inj performed
          simpa [countDowns] using induction
      | countDown =>
          simp only [CountDownLatch] at performed
          split at performed
          · cases Except.ok.inj performed
            have one : countDowns [(.countDown, .done)] = 1 := rfl
            rw [one]
            push_cast
            omega
          · cases performed

/-- A `wait` takes effect only behind all the calls of `countDown` that the latch
was made for. -/
theorem performs_gate {start count : Int}
    {history : List (LatchCall × LatchResult)}
    (performs : CountDownLatch.Performs start history count)
    {front back : List (LatchCall × LatchResult)} {result : LatchResult}
    (split : history = front ++ (.wait, result) :: back) :
    start ≤ countDowns front := by
  induction performs generalizing back with
  | refl => simp at split
  | @step history count call work before ready performed induction =>
      rcases List.eq_nil_or_concat back with rfl | ⟨rest, last, rfl⟩
      · obtain ⟨rfl, same⟩ := List.append_inj' split rfl
        obtain ⟨rfl, _⟩ := Prod.mk.inj (List.singleton_inj.mp same)
        have down : count ≤ 0 := by simpa [CountDownLatch] using ready
        have balance := performs_count before
        omega
      · rw [List.concat_eq_append, ← List.cons_append,
          ← List.append_assoc] at split
        exact induction (List.append_inj' split rfl).1

/-- In every run by any number of threads the calls take effect one after the
other, each when its thread does its work under the lock; a `wait` does so only
when `countDown` did as often as the latch was made for, and after that nobody is
left asleep when the threads come to rest. -/
theorem run_gates {Thread : Type t} [DecidableEq Thread] {start : Int}
    {state : Monitor.State Thread Int LatchCall LatchResult}
    {actions : List (Monitor.Action Thread LatchCall)}
    (run : CountDownLatch.machine.Run (.new start) actions state) :
    CountDownLatch.Linearized start
      (CountDownLatch.machine.observed Monitor.made (.new start) actions)
      (CountDownLatch.machine.observed CountDownLatch.performs (.new start)
        actions)
      (CountDownLatch.machine.observed Monitor.returned (.new start) actions)
      state ∧
    (∀ front result back,
      (CountDownLatch.machine.observed CountDownLatch.performs (.new start)
        actions).map Prod.snd = front ++ (.wait, result) :: back →
      start ≤ countDowns front) ∧
    (CountDownLatch.Stuck state → ∀ thread,
      state.place thread = .outside ∨
      state.place thread = .waiting .wait ∧
        countDowns ((CountDownLatch.machine.observed CountDownLatch.performs
          (.new start) actions).map Prod.snd) < start) := by
  have linearized := Monitor.run_linearized run
  refine ⟨linearized, ?_, ?_⟩
  · intro front result back split
    exact performs_gate linearized.legal split
  · intro stuck thread
    rcases stuck.still (Monitor.run_exclusive run) thread with place | waiting
    · exact .inl place
    · obtain ⟨call, waiting⟩ := waiting
      have unready := stuck.unready discipline run waiting
      have due := (Monitor.run_served discipline run).patient thread call waiting
      cases call with
      | countDown => cases due
      | getCount => cases due
      | wait =>
          refine .inr ⟨waiting, ?_⟩
          have shut : 0 < state.value := by
            simpa [CountDownLatch] using unready
          have balance := performs_count linearized.legal
          omega

/-- A thread waits, is let go by the other one, and is about to return. -/
theorem wait_passes :
    ∃ state : Monitor.State (Fin 2) Int LatchCall LatchResult,
    CountDownLatch.Linearized 1 [((0 : Fin 2), .wait), (1, .countDown)]
      [(1, .countDown, .done), (0, .wait, .done)] [(1, .countDown, .done)]
      state ∧
    (1 : Int) ≤ countDowns [(.countDown, .done)] ∧
    (CountDownLatch.Stuck state → ∀ thread,
      state.place thread = .outside ∨
      state.place thread = .waiting .wait ∧
        (countDowns [(.countDown, .done), (.wait, .done)] : Int) < 1) ∧
    (state.place 0).performed = some (.wait, .done) := by
  have found : (CountDownLatch.machine.execute
      (.new 1 : Monitor.State (Fin 2) Int LatchCall LatchResult)
      [.call 0 .wait, .lock 0, .test 0 none, .call 1 .countDown, .lock 1,
        .test 1 none, .unlock 1, .lock 0, .test 0 none]).any
      (fun state => (state.place 0).performed = some (.wait, .done)) =
        true := by
    decide +kernel
  obtain ⟨state, run, reached⟩ := Machine.run_of_execute found
  obtain ⟨linearized, gate, rest⟩ := run_gates run
  exact ⟨state, linearized, gate [(.countDown, .done)] .done [] rfl, rest,
    of_decide_eq_true reached⟩

end CountDownLatch

end CountDownLatch

end Muduo
