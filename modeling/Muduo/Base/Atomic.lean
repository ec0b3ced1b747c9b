import Muduo.Library.AtomicObject

/-!
# `AtomicIntegerT`

Every operation is one builtin of the compiler, hence one atomic step.  The type
`T` has `width` bits; its sums wrap around.
-/

namespace Muduo

open Library

variable {width : Nat}

/-- `__sync_val_compare_and_swap`: the value it leaves, and the former one. -/
def syncValCompareAndSwap (value oldval newval : BitVec width) :
    BitVec width × BitVec width :=
  (if value = oldval then newval else value, value)

/-- `__sync_fetch_and_add` -/
def syncFetchAndAdd (value x : BitVec width) : BitVec width × BitVec width :=
  (value + x, value)

/-- `__sync_add_and_fetch` -/
def syncAddAndFetch (value x : BitVec width) : BitVec width × BitVec width :=
  (value + x, value + x)

/-- `__sync_lock_test_and_set` -/
def syncLockTestAndSet (value newValue : BitVec width) :
    BitVec width × BitVec width :=
  (newValue, value)

/-- The conversion of a `T` to the parameter type `bool`. -/
def toBool (value : BitVec width) : Bool := value ≠ 0

/-- The conversion of a `bool` back to `T`. -/
def ofBool (flag : Bool) : BitVec width := if flag then 1 else 0

namespace AtomicIntegerT

/-- The operations, with the arguments that their callers write. -/
inductive Call (width : Nat) where
  | get
  | getAndAdd (x : BitVec width)
  | addAndGet (x : BitVec width)
  | incrementAndGet
  | decrementAndGet
  | add (x : BitVec width)
  | increment
  | decrement
  | getAndSet (newValue : BitVec width)
  | compareAndSet (compareValue setValue : BitVec width)
  deriving DecidableEq

def get (value : BitVec width) : BitVec width × BitVec width :=
  syncValCompareAndSwap value 0 0

def getAndAdd (value x : BitVec width) : BitVec width × BitVec width :=
  syncFetchAndAdd value x

def addAndGet (value x : BitVec width) : BitVec width × BitVec width :=
  syncAddAndFetch value x

def incrementAndGet (value : BitVec width) : BitVec width × BitVec width :=
  addAndGet value 1

def decrementAndGet (value : BitVec width) : BitVec width × BitVec width :=
  addAndGet value (-1)

def add (value x : BitVec width) : BitVec width :=
  (getAndAdd value x).1

def increment (value : BitVec width) : BitVec width :=
  (incrementAndGet value).1

def decrement (value : BitVec width) : BitVec width :=
  (decrementAndGet value).1

def getAndSet (value newValue : BitVec width) : BitVec width × BitVec width :=
  syncLockTestAndSet value newValue

/-- The parameter `setValue` is declared as a `bool`. -/
def compareAndSet (value compareValue : BitVec width) (setValue : Bool) :
    BitVec width × BitVec width :=
  syncValCompareAndSwap value compareValue (ofBool setValue)

/-- The result of an operation that returns a `T`. -/
def returning (outcome : BitVec width × BitVec width) :
    BitVec width × Option (BitVec width) :=
  (outcome.1, some outcome.2)

/-- A call as the object executes it, with `none` for a `void` result. -/
def perform (value : BitVec width) :
    Call width → BitVec width × Option (BitVec width)
  | .get => returning (get value)
  | .getAndAdd x => returning (getAndAdd value x)
  | .addAndGet x => returning (addAndGet value x)
  | .incrementAndGet => returning (incrementAndGet value)
  | .decrementAndGet => returning (decrementAndGet value)
  | .add x => (add value x, none)
  | .increment => (increment value, none)
  | .decrement => (decrement value, none)
  | .getAndSet newValue => returning (getAndSet value newValue)
  | .compareAndSet compareValue setValue =>
      returning (compareAndSet value compareValue (toBool setValue))

/-- The integer register that the object stands for. -/
def register (value : BitVec width) :
    Call width → BitVec width × Option (BitVec width)
  | .get => (value, some value)
  | .getAndAdd x => (value + x, some value)
  | .addAndGet x => (value + x, some (value + x))
  | .incrementAndGet => (value + 1, some (value + 1))
  | .decrementAndGet => (value - 1, some (value - 1))
  | .add x => (value + x, none)
  | .increment => (value + 1, none)
  | .decrement => (value - 1, none)
  | .getAndSet newValue => (newValue, some value)
  | .compareAndSet compareValue setValue =>
      (if value = compareValue then setValue else value, some value)

/-- A call and the thread that makes it. -/
abbrev Event (width : Nat) := Nat × Call width

def object (width : Nat) :
    AtomicObject (BitVec width) (Event width) (Option (BitVec width)) where
  apply value event := perform value event.2

def registerObject (width : Nat) :
    AtomicObject (BitVec width) (Event width) (Option (BitVec width)) where
  apply value event := register value event.2

theorem ofBool_toBool_eq_iff {value : BitVec width} :
    ofBool (toBool value) = value ↔ value = 0 ∨ value = 1 := by
  by_cases zero : value = 0
  · have flag : toBool value = false := decide_eq_false (not_not.mpr zero)
    rw [flag]
    exact iff_of_true zero.symm (.inl zero)
  · have flag : toBool value = true := decide_eq_true zero
    rw [flag]
    constructor
    · intro same
      exact .inr same.symm
    · intro either
      exact (either.resolve_left zero).symm

/-- The call leaves what was asked for: a value that `bool` can hold, or none
because the comparison fails. -/
def Fits (value : BitVec width) : Call width → Prop
  | .compareAndSet compareValue setValue =>
      value = compareValue → setValue = 0 ∨ setValue = 1
  | _ => True

theorem perform_eq_register_iff {value : BitVec width} {call : Call width} :
    perform value call = register value call ↔ Fits value call := by
  cases call with
  | get =>
      have same : (if value = 0 then 0 else value) = value := by
        split
        next zero => exact zero.symm
        next => rfl
      simp only [perform, register, returning, get, syncValCompareAndSwap, same,
        Fits]
  | getAndAdd x =>
      simp [perform, register, returning, getAndAdd, syncFetchAndAdd, Fits]
  | addAndGet x =>
      simp [perform, register, returning, addAndGet, syncAddAndFetch, Fits]
  | incrementAndGet =>
      simp [perform, register, returning, incrementAndGet, addAndGet,
        syncAddAndFetch, Fits]
  | decrementAndGet =>
      simp [perform, register, returning, decrementAndGet, addAndGet,
        syncAddAndFetch, Fits, BitVec.sub_eq_add_neg]
  | add x =>
      simp [perform, register, add, getAndAdd, syncFetchAndAdd, Fits]
  | increment =>
      simp [perform, register, increment, incrementAndGet, addAndGet,
        syncAddAndFetch, Fits]
  | decrement =>
      simp [perform, register, decrement, decrementAndGet, addAndGet,
        syncAddAndFetch, Fits, BitVec.sub_eq_add_neg]
  | getAndSet newValue =>
      simp [perform, register, returning, getAndSet, syncLockTestAndSet, Fits]
  | compareAndSet compareValue setValue =>
      by_cases equal : value = compareValue
      · simp [perform, register, returning, compareAndSet,
          syncValCompareAndSwap, Fits, equal, ofBool_toBool_eq_iff]
      · simp [perform, register, returning, compareAndSet,
          syncValCompareAndSwap, Fits, equal]

/-- What a call leaves and returns tells which value it found. -/
theorem perform_reveals (call : Call width) (left right : BitVec width)
    (same : perform left call = register right call) : left = right := by
  cases call with
  | getAndAdd x =>
      simpa [perform, register, returning, getAndAdd, syncFetchAndAdd] using same
  | addAndGet x =>
      simpa [perform, register, returning, addAndGet, syncAddAndFetch] using same
  | incrementAndGet =>
      simpa [perform, register, returning, incrementAndGet, addAndGet,
        syncAddAndFetch] using same
  | decrementAndGet =>
      simpa [perform, register, returning, decrementAndGet, addAndGet,
        syncAddAndFetch, BitVec.sub_eq_add_neg] using same
  | add x =>
      simpa [perform, register, add, getAndAdd, syncFetchAndAdd] using same
  | increment =>
      simpa [perform, register, increment, incrementAndGet, addAndGet,
        syncAddAndFetch] using same
  | decrement =>
      simpa [perform, register, decrement, decrementAndGet, addAndGet,
        syncAddAndFetch, BitVec.sub_eq_add_neg] using same
  | get | getAndSet newValue | compareAndSet compareValue setValue =>
      have results := congrArg Prod.snd same
      simpa [perform, register, returning, get, getAndSet, compareAndSet,
        syncValCompareAndSwap, syncLockTestAndSet] using results

/-- The object is an integer register on an interleaving of calls exactly as
long as no comparison succeeds whose new value a `bool` cannot hold. -/
theorem run_eq_register_iff (value : BitVec width)
    (events : List (Event width)) :
    (object width).run value events = (registerObject width).run value events ↔
      ∀ front event back, events = front ++ event :: back →
        Fits ((object width).after value front) event.2 := by
  have reveals : ∀ event left right,
      (object width).apply left event = (registerObject width).apply right event →
        left = right :=
    fun event left right => perform_reveals event.2 left right
  rw [AtomicObject.run_eq_iff_alike reveals]
  constructor
  · intro alike front event back split
    exact perform_eq_register_iff.mp (alike front event back split)
  · intro fits front event back split
    exact perform_eq_register_iff.mpr (fits front event back split)

/-- A register would hold 5 after the call. -/
theorem compareAndSet_stores_one :
    (object 32).run 0 [(1, .compareAndSet 0 5), (2, .get)] =
      (1, [some 0, some 1]) ∧
    (registerObject 32).run 0 [(1, .compareAndSet 0 5), (2, .get)] =
      (5, [some 0, some 5]) := by
  decide

end AtomicIntegerT

end Muduo
