import Muduo.Library.Machine
import Muduo.Library.Labelled
import Mathlib.Logic.Function.Basic
import Mathlib.Logic.Relation

/-!
# Work that is done step by step under a lock

A call first prepares itself without the lock.  It then takes the lock, works on
the shared value in small steps, and releases the lock.  Although the steps of
other threads come in between, the calls of a run are whole calls, one after the
other, in the order in which they end.
-/

namespace Muduo.Library

universe t u v w x y

/-- `prepare` may end a call at once, `advance` is a step with the lock held.
Nothing happens after a `final` result. -/
structure CriticalSection (Value : Type u) (Call : Type v) (Point : Type y)
    (Result : Type w) (Fault : Type x) where
  prepare : Call → Except Fault (Point ⊕ Result)
  advance : Value → Point → Value × (Point ⊕ Result)
  final : Result → Bool

namespace CriticalSection

/-- Where a thread stands in its call. -/
inductive Place (Call : Type v) (Point : Type y) where
  | outside
  | called (call : Call)
  | queued (call : Call) (point : Point)
  | inside (call : Call) (point : Point)

namespace Place

variable {Call : Type v} {Point : Type y}

def idle : Place Call Point → Bool
  | outside => true
  | called _ | queued _ _ | inside _ _ => false

/-- The thread needs the lock for its next step. -/
def waits : Place Call Point → Bool
  | queued _ _ => true
  | outside | called _ | inside _ _ => false

/-- The thread holds the lock. -/
def holds : Place Call Point → Bool
  | inside _ _ => true
  | outside | called _ | queued _ _ => false

def call : Place Call Point → Option Call
  | outside => none
  | called call | queued call _ | inside call _ => some call

end Place

structure State (Thread : Type t) (Value : Type u) (Call : Type v)
    (Point : Type y) where
  value : Value
  owner : Option Thread
  place : Thread → Place Call Point
  stopped : Bool

inductive Action (Thread : Type t) (Call : Type v) where
  | call (thread : Thread) (call : Call)
  | proceed (thread : Thread)

variable {Thread : Type t} {Value : Type u} {Call : Type v} {Point : Type y}
variable {Result : Type w} {Fault : Type x} [DecidableEq Thread]

namespace State

def new (value : Value) : State Thread Value Call Point :=
  { value, owner := none, place := fun _ => .outside, stopped := false }

def set (state : State Thread Value Call Point) (thread : Thread)
    (place : Place Call Point) : State Thread Value Call Point :=
  { state with place := Function.update state.place thread place }

end State

def Enabled (state : State Thread Value Call Point) :
    Action Thread Call → Prop
  | .call thread _ =>
      state.stopped = false ∧ (state.place thread).idle = true
  | .proceed thread =>
      state.stopped = false ∧ (state.place thread).idle = false ∧
        ((state.place thread).waits = true → state.owner.isNone = true)

variable (body : CriticalSection Value Call Point Result Fault)

def step (state : State Thread Value Call Point) :
    Action Thread Call → Except Fault (State Thread Value Call Point)
  | .call thread call => .ok (state.set thread (.called call))
  | .proceed thread =>
      match state.place thread with
      | .outside => .ok state
      | .called call =>
          match body.prepare call with
          | .error fault => .error fault
          | .ok (.inl point) => .ok (state.set thread (.queued call point))
          | .ok (.inr result) =>
              .ok { state.set thread .outside with stopped := body.final result }
      | .queued call point =>
          .ok { state.set thread (.inside call point) with
            owner := some thread }
      | .inside call point =>
          match body.advance state.value point with
          | (value, .inl next) =>
              .ok { state.set thread (.inside call next) with value }
          | (value, .inr result) =>
              .ok { state.set thread .outside with
                value, owner := none, stopped := body.final result }

def machine : Machine (State Thread Value Call Point) (Action Thread Call)
    Fault where
  enabled := Enabled
  step := body.step

/-- A call begins. -/
def made (_ : State Thread Value Call Point) :
    Action Thread Call → List (Thread × Call)
  | .call thread call => [(thread, call)]
  | .proceed _ => []

/-- A call ends. -/
def returned (state : State Thread Value Call Point) :
    Action Thread Call → List (Thread × Call × Result)
  | .call _ _ => []
  | .proceed thread =>
      match state.place thread with
      | .outside | .queued _ _ => []
      | .called call =>
          match body.prepare call with
          | .ok (.inr result) => [(thread, call, result)]
          | .ok (.inl _) | .error _ => []
      | .inside call point =>
          match body.advance state.value point with
          | (_, .inl _) => []
          | (_, .inr result) => [(thread, call, result)]

/-- What a step does. -/
inductive Moves (state : State Thread Value Call Point) :
    Action Thread Call → State Thread Value Call Point → Prop where
  | call {thread : Thread} {call : Call}
      (outside : state.place thread = .outside) :
      Moves state (.call thread call) (state.set thread (.called call))
  | direct {thread : Thread} {call : Call} {result : Result}
      (called : state.place thread = .called call)
      (prepared : body.prepare call = .ok (.inr result)) :
      Moves state (.proceed thread)
        { state.set thread .outside with stopped := body.final result }
  | queue {thread : Thread} {call : Call} {point : Point}
      (called : state.place thread = .called call)
      (prepared : body.prepare call = .ok (.inl point)) :
      Moves state (.proceed thread) (state.set thread (.queued call point))
  | lock {thread : Thread} {call : Call} {point : Point}
      (queued : state.place thread = .queued call point)
      (free : state.owner = none) :
      Moves state (.proceed thread)
        { state.set thread (.inside call point) with owner := some thread }
  | advance {thread : Thread} {call : Call} {point next : Point} {value : Value}
      (inside : state.place thread = .inside call point)
      (advanced : body.advance state.value point = (value, .inl next)) :
      Moves state (.proceed thread)
        { state.set thread (.inside call next) with value }
  | finish {thread : Thread} {call : Call} {point : Point} {value : Value}
      {result : Result}
      (inside : state.place thread = .inside call point)
      (advanced : body.advance state.value point = (value, .inr result)) :
      Moves state (.proceed thread)
        { state.set thread .outside with
          value, owner := none, stopped := body.final result }

variable {body}
variable {state next : State Thread Value Call Point}
variable {action : Action Thread Call}

theorem Moves.of_step (enabled : Enabled state action)
    (stepped : body.step state action = .ok next) :
    body.Moves state action next := by
  cases action with
  | call thread call =>
      cases Except.ok.inj stepped
      cases place : state.place thread with
      | outside => exact .call place
      | called _ | queued _ _ | inside _ _ =>
          simp [Enabled, place, Place.idle] at enabled
  | proceed thread =>
      obtain ⟨_, busy, free⟩ := enabled
      cases place : state.place thread with
      | outside => simp [place, Place.idle] at busy
      | called call =>
          simp only [step, place] at stepped
          cases prepared : body.prepare call with
          | error fault => simp [prepared] at stepped
          | ok outcome =>
              cases outcome with
              | inl point =>
                  simp only [prepared] at stepped
                  cases Except.ok.inj stepped
                  exact .queue place prepared
              | inr result =>
                  simp only [prepared] at stepped
                  cases Except.ok.inj stepped
                  exact .direct place prepared
      | queued call point =>
          simp only [step, place] at stepped
          cases Except.ok.inj stepped
          have unlocked := free (congrArg Place.waits place)
          exact .lock place (Option.isNone_iff_eq_none.mp unlocked)
      | inside call point =>
          simp only [step, place] at stepped
          rcases advanced : body.advance state.value point with ⟨value, outcome⟩
          cases outcome with
          | inl next =>
              simp only [advanced] at stepped
              cases Except.ok.inj stepped
              exact .advance place advanced
          | inr result =>
              simp only [advanced] at stepped
              cases Except.ok.inj stepped
              exact .finish place advanced

/-- The thread that a step is taken by. -/
def Action.thread : Action Thread Call → Thread
  | .call thread _ => thread
  | .proceed thread => thread

theorem Moves.place_other (moves : body.Moves state action next)
    {other : Thread} (distinct : other ≠ action.thread) :
    next.place other = state.place other := by
  cases moves with
  | call _ | direct _ _ | queue _ _ | lock _ _ | advance _ _ | finish _ _ =>
      exact Function.update_of_ne distinct _ _

section Exclusion

/-- The thread that holds the lock is the one that is inside. -/
def Exclusive (state : State Thread Value Call Point) : Prop :=
  ∀ thread, state.owner = some thread ↔ (state.place thread).holds = true

omit [DecidableEq Thread] in
theorem Exclusive.unique (exclusive : Exclusive state) {first second : Thread}
    (inside : (state.place first).holds = true)
    (also : (state.place second).holds = true) : first = second := by
  have owner := (exclusive first).mpr inside
  have same := (exclusive second).mpr also
  exact Option.some.inj (owner.symm.trans same)

omit [DecidableEq Thread] in
theorem Exclusive.other (exclusive : Exclusive state) {thread other : Thread}
    (inside : (state.place thread).holds = true) (distinct : other ≠ thread) :
    (state.place other).holds = false := by
  apply Bool.eq_false_iff.mpr
  intro also
  exact distinct (exclusive.unique also inside)

omit [DecidableEq Thread] in
theorem Exclusive.free (exclusive : Exclusive state)
    (free : state.owner = none) (thread : Thread) :
    (state.place thread).holds = false := by
  apply Bool.eq_false_iff.mpr
  intro inside
  have owner := (exclusive thread).mpr inside
  rw [free] at owner
  cases owner

theorem Exclusive.stay (exclusive : Exclusive state) {thread : Thread}
    {place : Place Call Point} {value : Value} {stopped : Bool}
    (same : place.holds = (state.place thread).holds) :
    Exclusive { state.set thread place with value, stopped } := by
  intro other
  by_cases here : other = thread
  · subst here
    simpa [State.set, same] using exclusive other
  · simpa [State.set, here] using exclusive other

theorem Exclusive.take (exclusive : Exclusive state) {thread : Thread}
    {place : Place Call Point} (free : state.owner = none)
    (inside : place.holds = true) :
    Exclusive { state.set thread place with owner := some thread } := by
  intro other
  by_cases here : other = thread
  · subst here
    simp [State.set, inside]
  · have outside := exclusive.free free other
    simp [State.set, here, outside, Ne.symm here]

theorem Exclusive.release (exclusive : Exclusive state) {thread : Thread}
    {place : Place Call Point} {value : Value} {stopped : Bool}
    (inside : (state.place thread).holds = true)
    (outside : place.holds = false) :
    Exclusive { state.set thread place with value, owner := none, stopped } := by
  intro other
  by_cases here : other = thread
  · subst here
    simp [State.set, outside]
  · have apart := exclusive.other inside here
    simp [State.set, here, apart]

theorem Exclusive.moves (exclusive : Exclusive state)
    (moves : body.Moves state action next) : Exclusive next := by
  cases moves with
  | @call thread call outside =>
      exact exclusive.stay (by rw [outside]; rfl)
  | @direct thread call result called prepared =>
      exact exclusive.stay (by rw [called]; rfl)
  | @queue thread call point called prepared =>
      exact exclusive.stay (by rw [called]; rfl)
  | lock queued free =>
      exact exclusive.take free rfl
  | @advance thread call point next value inside advanced =>
      exact exclusive.stay (by rw [inside]; rfl)
  | finish inside advanced =>
      exact exclusive.release (congrArg Place.holds inside) rfl

end Exclusion

section Serial

variable (body)

/-- Steps of the work from one point to another. -/
def Advances : Value × Point → Value × Point → Prop :=
  Relation.ReflTransGen fun before after =>
    body.advance before.1 before.2 = (after.1, .inl after.2)

/-- A call that has the shared value for itself. -/
inductive Answers (base : Value) (call : Call) : Value → Result → Prop where
  | direct {result : Result} (prepared : body.prepare call = .ok (.inr result)) :
      Answers base call base result
  | locked {first point : Point} {middle value : Value} {result : Result}
      (prepared : body.prepare call = .ok (.inl first))
      (advances : body.Advances (base, first) (middle, point))
      (advanced : body.advance middle point = (value, .inr result)) :
      Answers base call value result

/-- Whole calls, one after the other. -/
inductive Serial (start : Value) : List (Call × Result) → Value → Prop where
  | refl : Serial start [] start
  | step {history : List (Call × Result)} {base value : Value} {call : Call}
      {result : Result} :
      Serial start history base → body.Answers base call value result →
      Serial start (history ++ [(call, result)]) value

/-- What the thread that holds the lock has done of its call. -/
def Partly (base value : Value) : Place Call Point → Prop
  | .inside call point => ∃ first, body.prepare call = .ok (.inl first) ∧
      body.Advances (base, first) (value, point)
  | .queued call point => body.prepare call = .ok (.inl point)
  | .outside | .called _ => True

/-- The calls that have ended are whole calls, one after the other.  Besides
them there is what the thread that holds the lock has done.  What a thread has
called has ended or is what it is in.  At most the last call to end is final. -/
structure Serialized (start : Value) (calls : List (Thread × Call))
    (returns : List (Thread × Call × Result))
    (state : State Thread Value Call Point) : Prop where
  exclusive : Exclusive state
  legal : ∃ base, body.Serial start (returns.map Prod.snd) base ∧
    (state.owner = none → state.value = base) ∧
    ∀ thread, body.Partly base state.value (state.place thread)
  called : ∀ thread, part thread calls =
    (part thread returns).map Prod.fst ++ (state.place thread).call.toList
  stopped : state.stopped =
    returns.getLast?.any fun event => body.final event.2.2
  going : ∀ event ∈ returns.dropLast, body.final event.2.2 = false

variable {body}
variable {start : Value} {calls : List (Thread × Call)}
variable {returns : List (Thread × Call × Result)}

theorem Partly.of_outside {base value other final : Value}
    {place : Place Call Point} (partly : body.Partly base value place)
    (outside : place.holds = false) : body.Partly other final place := by
  cases place with
  | outside => trivial
  | called _ => trivial
  | queued call point => exact partly
  | inside call point => cases outside

theorem partly_update {base value : Value}
    {places : Thread → Place Call Point} {thread : Thread}
    {place : Place Call Point} (own : body.Partly base value place)
    (others : ∀ other, other ≠ thread →
      body.Partly base value (places other)) (other : Thread) :
    body.Partly base value (Function.update places thread place other) := by
  by_cases here : other = thread
  · subst here
    rw [Function.update_self]
    exact own
  · rw [Function.update_of_ne here]
    exact others other here

theorem part_concat_same {Event : Type w} (thread : Thread)
    (events : List (Thread × Event)) (event : Event) :
    part thread (events ++ [(thread, event)]) = part thread events ++ [event] := by
  simp [part]

theorem part_concat_other {Event : Type w} {thread other : Thread}
    (distinct : other ≠ thread) (events : List (Thread × Event))
    (event : Event) :
    part other (events ++ [(thread, event)]) = part other events := by
  simp [part, Ne.symm distinct]

namespace Serialized

private theorem called_stay
    (serialized : body.Serialized start calls returns state)
    {thread : Thread} {place : Place Call Point}
    (same : place.call = (state.place thread).call) (other : Thread) :
    part other calls = (part other returns).map Prod.fst ++
      (Function.update state.place thread place other).call.toList := by
  rw [serialized.called other]
  by_cases here : other = thread
  · subst here
    simp [same]
  · simp [here]

private theorem called_end
    (serialized : body.Serialized start calls returns state)
    {thread : Thread} {call : Call}
    (inside : (state.place thread).call = some call) (result : Result)
    (other : Thread) :
    part other calls =
      (part other (returns ++ [(thread, call, result)])).map Prod.fst ++
        (Function.update state.place thread .outside other).call.toList := by
  rw [serialized.called other]
  by_cases here : other = thread
  · subst here
    rw [part_concat_same, inside]
    simp [Place.call]
  · simp [part_concat_other here, here]

private theorem going_end
    (serialized : body.Serialized start calls returns state)
    (going : state.stopped = false) (last : Thread × Call × Result) :
    ∀ event ∈ (returns ++ [last]).dropLast, body.final event.2.2 = false := by
  rw [List.dropLast_concat]
  intro event member
  rcases List.eq_nil_or_concat returns with rfl | ⟨front, back, rfl⟩
  · cases member
  · have ended := serialized.stopped
    have before := serialized.going
    rw [List.concat_eq_append] at member ended before
    rw [going, List.getLast?_concat] at ended
    rw [List.dropLast_concat] at before
    rcases List.mem_append.mp member with early | late
    · exact before event early
    · obtain rfl := List.mem_singleton.mp late
      exact ended.symm

theorem moves (serialized : body.Serialized start calls returns state)
    (going : state.stopped = false) (moves : body.Moves state action next) :
    body.Serialized start (calls ++ made state action)
      (returns ++ body.returned state action) next := by
  have exclusive := serialized.exclusive.moves moves
  obtain ⟨base, legal, free, partly⟩ := serialized.legal
  cases moves with
  | @call thread call outside =>
      simp only [made, returned, List.append_nil]
      refine ⟨exclusive, ⟨base, legal, free,
        partly_update trivial fun other _ => partly other⟩, ?_,
        serialized.stopped, serialized.going⟩
      · intro other
        by_cases here : other = thread
        · subst here
          rw [part_concat_same, serialized.called other, outside]
          simp [State.set, Place.call]
        · rw [part_concat_other here, serialized.called other]
          simp [State.set, here]
  | @direct thread call result called prepared =>
      have event : body.returned state (.proceed thread) =
          [(thread, call, result)] := by
        simp [returned, called, prepared]
      simp only [event, made, List.append_nil]
      refine ⟨exclusive, ⟨base, ?_, free,
        partly_update trivial fun other _ => partly other⟩, ?_, ?_,
        serialized.going_end going _⟩
      · rw [List.map_append]
        exact .step legal (.direct prepared)
      · exact serialized.called_end (congrArg Place.call called) result
      · rw [List.getLast?_concat]
        rfl
  | @queue thread call point called prepared =>
      have event : body.returned state (.proceed thread) = [] := by
        simp [returned, called, prepared]
      simp only [event, made, List.append_nil]
      exact ⟨exclusive, ⟨base, legal, free,
        partly_update prepared fun other _ => partly other⟩,
        serialized.called_stay (by rw [called]; rfl),
        serialized.stopped, serialized.going⟩
  | @lock thread call point queued unlocked =>
      have event : body.returned state (.proceed thread) = [] := by
        simp [returned, queued]
      simp only [event, made, List.append_nil]
      refine ⟨exclusive, ⟨base, legal, ?_, ?_⟩,
        serialized.called_stay (by rw [queued]; rfl),
        serialized.stopped, serialized.going⟩
      · intro none
        cases none
      · have prepared := partly thread
        rw [queued] at prepared
        have begun : body.Partly base state.value (.inside call point) :=
          ⟨point, prepared, by rw [free unlocked]; exact .refl⟩
        exact partly_update begun fun other _ => partly other
  | @advance thread call point after value inside advanced =>
      have event : body.returned state (.proceed thread) = [] := by
        simp [returned, inside, advanced]
      have holds := congrArg Place.holds inside
      simp only [event, made, List.append_nil]
      refine ⟨exclusive, ⟨base, legal, ?_, ?_⟩,
        serialized.called_stay (by rw [inside]; rfl),
        serialized.stopped, serialized.going⟩
      · intro none
        have outside := exclusive.free none thread
        simp [State.set, Place.holds] at outside
      · have worked := partly thread
        rw [inside] at worked
        obtain ⟨first, prepared, advances⟩ := worked
        have on : body.Partly base value (.inside call after) :=
          ⟨first, prepared, advances.tail advanced⟩
        exact partly_update on fun other apart =>
          (partly other).of_outside (serialized.exclusive.other holds apart)
  | @finish thread call point value result inside advanced =>
      have event : body.returned state (.proceed thread) =
          [(thread, call, result)] := by
        simp [returned, inside, advanced]
      have holds := congrArg Place.holds inside
      simp only [event, made, List.append_nil]
      refine ⟨exclusive, ⟨value, ?_, fun _ => rfl, ?_⟩, ?_, ?_,
        serialized.going_end going _⟩
      · have worked := partly thread
        rw [inside] at worked
        obtain ⟨first, prepared, advances⟩ := worked
        rw [List.map_append]
        exact .step legal (.locked prepared advances advanced)
      · exact partly_update trivial fun other apart =>
          (partly other).of_outside (serialized.exclusive.other holds apart)
      · exact serialized.called_end (congrArg Place.call inside) result
      · rw [List.getLast?_concat]
        rfl

theorem last_of_stopped (serialized : body.Serialized start calls returns state)
    (stopped : state.stopped = true) :
    ∃ front last, returns = front ++ [last] ∧
      body.final last.2.2 = true := by
  have ended := serialized.stopped
  rw [stopped] at ended
  obtain ⟨last, found, final⟩ := (Option.any_eq_true _ _).mp ended.symm
  obtain ⟨front, split⟩ := List.getLast?_eq_some_iff.mp found
  exact ⟨front, last, split, final⟩

theorem stopped_of_final (serialized : body.Serialized start calls returns state)
    {event : Thread × Call × Result} (member : event ∈ returns)
    (final : body.final event.2.2 = true) : state.stopped = true := by
  have ended := serialized.stopped
  have going := serialized.going
  rcases List.eq_nil_or_concat returns with rfl | ⟨front, last, rfl⟩
  · cases member
  · rw [List.concat_eq_append] at member ended going
    rw [List.getLast?_concat] at ended
    rw [List.dropLast_concat] at going
    rcases List.mem_append.mp member with early | late
    · rw [going event early] at final
      cases final
    · obtain rfl := List.mem_singleton.mp late
      exact ended.trans final

end Serialized

omit [DecidableEq Thread] in
theorem going_of_enabled (enabled : Enabled state action) :
    state.stopped = false := by
  cases action with
  | call thread call => exact enabled.1
  | proceed thread => exact enabled.1

/-- In every run the calls that have ended are whole calls. -/
theorem run_serialized {actions : List (Action Thread Call)}
    (run : body.machine.Run (.new start) actions state) :
    body.Serialized start
      (body.machine.observed made (.new start) actions)
      (body.machine.observed body.returned (.new start) actions) state := by
  induction run with
  | refl =>
      refine ⟨?_, ⟨start, .refl, fun _ => rfl, ?_⟩, ?_, rfl, ?_⟩
      · intro thread
        simp [State.new, Place.holds]
      · intro thread
        trivial
      · intro thread
        rfl
      · intro event member
        cases member
  | step before enabled stepped induction =>
      rw [before.observed_concat stepped, before.observed_concat stepped]
      exact induction.moves (going_of_enabled enabled) (.of_step enabled stepped)

/-- Where only work under the lock is final, the last call releases the lock. -/
theorem owner_of_stopped
    (direct : ∀ call result, body.prepare call = .ok (.inr result) →
      body.final result = false)
    {actions : List (Action Thread Call)}
    (run : body.machine.Run (.new start) actions state)
    (stopped : state.stopped = true) : state.owner = none := by
  revert stopped
  apply Machine.Run.state_invariant
    (fun state : State Thread Value Call Point =>
      state.stopped = true → state.owner = none) ?_ ?_ run
  · intro stopped
    rfl
  · intro state action next _ enabled stepped stopped
    have going := going_of_enabled enabled
    have moves : body.Moves state action next := .of_step enabled stepped
    cases moves with
    | call outside => exact absurd (going.symm.trans stopped) Bool.false_ne_true
    | queue called prepared =>
        exact absurd (going.symm.trans stopped) Bool.false_ne_true
    | lock queued free =>
        exact absurd (going.symm.trans stopped) Bool.false_ne_true
    | advance inside advanced =>
        exact absurd (going.symm.trans stopped) Bool.false_ne_true
    | direct called prepared =>
        have fine := direct _ _ prepared
        exact absurd (fine.symm.trans stopped) Bool.false_ne_true
    | finish inside advanced => rfl

theorem safe_of_prepare
    (prepares : ∀ call, ∃ outcome, body.prepare call = .ok outcome) :
    body.machine.Safe (.new start : State Thread Value Call Point) := by
  intro actions state action run enabled
  cases action with
  | call thread call => exact ⟨_, rfl⟩
  | proceed thread =>
      show ∃ next, body.step state (.proceed thread) = .ok next
      cases place : state.place thread with
      | outside => simp [step, place]
      | queued call point => simp [step, place]
      | called call =>
          obtain ⟨outcome, prepared⟩ := prepares call
          cases outcome with
          | inl point => simp [step, place, prepared]
          | inr result => simp [step, place, prepared]
      | inside call point =>
          rcases advanced : body.advance state.value point with ⟨value, outcome⟩
          cases outcome with
          | inl after => simp [step, place, advanced]
          | inr result => simp [step, place, advanced]

end Serial

instance (state : State Thread Value Call Point)
    (action : Action Thread Call) :
    Decidable (body.machine.enabled state action) :=
  match action with
  | .call _ _ => inferInstanceAs (Decidable (_ ∧ _))
  | .proceed _ => inferInstanceAs (Decidable (_ ∧ _ ∧ (_ → _)))

end CriticalSection

end Muduo.Library
