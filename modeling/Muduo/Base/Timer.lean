import Mathlib.Data.Prod.Lex
import Mathlib.Data.Int.Order.Basic

/-!
# Timestamps and timers

Timestamps are exact integers.  The `double` interval of a timer is used in two
ways only, for its sign and for the whole number of microseconds it stands for;
`Interval` keeps both.
-/

namespace Muduo

/-- Microseconds since the epoch, exact. -/
abbrev Timestamp := Int

namespace Timestamp

def invalid : Timestamp := 0

def valid (time : Timestamp) : Bool := 0 < time

end Timestamp

/-- An interval in seconds: whether it is positive, and its microseconds, rounded
towards zero as the conversion to `int64_t` does. -/
structure Interval where
  positive : Bool
  micros : Nat
  micros_eq_zero : positive = false → micros = 0
  deriving DecidableEq, Repr

def addTime (timestamp : Timestamp) (seconds : Interval) : Timestamp :=
  timestamp + seconds.micros

structure Timer where
  expiration : Timestamp
  interval : Interval
  repeats : Bool
  sequence : Nat
  deriving DecidableEq, Repr

namespace Timer

def new (when : Timestamp) (interval : Interval) (sequence : Nat) : Timer :=
  { expiration := when, interval, repeats := interval.positive, sequence }

def restart (timer : Timer) (now : Timestamp) : Timer :=
  { timer with expiration :=
      if timer.repeats then addTime now timer.interval
      else Timestamp.invalid }

end Timer

/-- The address of a timer with its sequence number: what a caller keeps to
cancel it, and the pairs of `activeTimers_` and `cancelingTimers_`. -/
structure TimerId where
  timer : Nat
  sequence : Nat
  deriving DecidableEq, Repr

abbrev ActiveTimer := TimerId

/-- The default constructor: a null pointer and no sequence number. -/
def TimerId.null : TimerId := { timer := 0, sequence := 0 }

/-- A pair of `timers_`: the expiration and the address of a timer. -/
structure Entry where
  first : Timestamp
  second : Nat
  deriving DecidableEq, Repr

instance : LinearOrder TimerId :=
  LinearOrder.lift' (fun id => toLex (id.timer, id.sequence)) (by
    rintro ⟨timer, sequence⟩ ⟨other, number⟩ same
    obtain ⟨rfl, rfl⟩ := Prod.ext_iff.mp same
    rfl)

instance : LinearOrder Entry :=
  LinearOrder.lift' (fun entry => toLex (entry.first, entry.second)) (by
    rintro ⟨first, second⟩ ⟨other, address⟩ same
    obtain ⟨rfl, rfl⟩ := Prod.ext_iff.mp same
    rfl)

theorem Entry.lt_iff {entry other : Entry} :
    entry < other ↔ entry.first < other.first ∨
      (entry.first = other.first ∧ entry.second < other.second) :=
  Prod.Lex.lt_iff

theorem Entry.first_le {entry other : Entry} (ordered : entry ≤ other) :
    entry.first ≤ other.first := by
  rcases Prod.Lex.le_iff.mp ordered with before | ⟨same, _⟩
  · exact le_of_lt before
  · exact le_of_eq same

end Muduo
