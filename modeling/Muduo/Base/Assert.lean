/-!
# Asserted conditions

A function of the source that asserts is modelled by a `Checked` function: it
stops with the condition that failed, or goes on.
-/

namespace Muduo

/-- The failing asserts of the source, each named by its function; a second
assert of one function also by what it compares.  A loop that does not end, the
use of a `Timer` or a link that is not allocated, a call of `epoll_ctl` that
fails, which is fatal, an access outside of an array, `LOG_FATAL`, which aborts,
and a `std::length_error`, which nothing catches, are faults as well. -/
inductive Fault where
  | retrieve
  | retrieveUntilPeek
  | retrieveUntilBeginWrite
  | retrieveAsString
  | ensureWritableBytes
  | hasWritten
  | unwrite
  | prepend
  | makeSpaceReaderIndex
  | makeSpaceReadable
  | removeHandler
  | removeHandlerFind
  | removeHandlerSame
  | updateHandlerNew
  | updateHandlerFind
  | updateHandlerSame
  | epollCtl
  | updateInPollAdd
  | updateInPollMod
  | sendInLoop
  | handleClose
  | linkUse
  | newConnectionInsert
  | newConnectionFind
  | setMethod
  | parseRequestEndless
  | timerLoad
  | timerDelete
  | insertSizes
  | insertTimers
  | insertActiveTimers
  | insertSizesAfter
  | cancelSizes
  | cancelErase
  | cancelSizesAfter
  | getExpiredSizes
  | getExpiredSentry
  | getExpiredErase
  | getExpiredSizesAfter
  | peekInt64
  | peekInt32
  | peekInt16
  | peekInt8
  | logBuffer
  | logLevelName
  | logFatal
  | copyRange
  | lengthError
  deriving DecidableEq, Repr

abbrev Checked (α : Type) := Except Fault α

/-- `assert(condition)`, with the fault that reports its failure. -/
def assertThat (condition : Prop) [Decidable condition] (fault : Fault) :
    Checked Unit :=
  if condition then .ok () else .error fault

@[simp] theorem assertThat_bind {α : Type} {condition : Prop}
    [Decidable condition] {fault : Fault} {next : Unit → Checked α} :
    (assertThat condition fault >>= next) =
      if condition then next () else .error fault := by
  unfold assertThat
  split <;> rfl

@[simp] theorem assertThat_map {α : Type} {condition : Prop}
    [Decidable condition] {fault : Fault} {next : Unit → α} :
    (next <$> assertThat condition fault) =
      if condition then .ok (next ()) else .error fault := by
  unfold assertThat
  split <;> rfl

@[simp] theorem ok_bind {α β : Type} (value : α) (next : α → Checked β) :
    ((Except.ok value : Checked α) >>= next) = next value := rfl

theorem bind_eq_ok {α β : Type} {first : Checked α}
    {next : α → Checked β} {result : β}
    (completed : (first >>= next) = .ok result) :
    ∃ value, first = .ok value ∧ next value = .ok result := by
  cases first with
  | error fault => cases completed
  | ok value => exact ⟨value, rfl, completed⟩

theorem bind_eq_error {α β : Type} {first : Checked α}
    {next : α → Checked β} {fault : Fault}
    (failed : (first >>= next) = .error fault) :
    first = .error fault ∨
      ∃ value, first = .ok value ∧ next value = .error fault := by
  cases first with
  | error other => exact .inl (congrArg Except.error (Except.error.inj failed))
  | ok value => exact .inr ⟨value, rfl, failed⟩

theorem exists_of_map_eq_ok {α β : Type} {outcome : Checked α}
    {project : α → β} {result : β}
    (mapped : outcome.map project = .ok result) :
    ∃ value, outcome = .ok value ∧ project value = result := by
  cases outcome with
  | error fault => cases mapped
  | ok value => exact ⟨value, rfl, Except.ok.inj mapped⟩

theorem eq_error_of_map {α β : Type} {outcome : Checked α}
    {project : α → β} {fault : Fault}
    (mapped : outcome.map project = .error fault) :
    outcome = .error fault := by
  cases outcome with
  | error other => exact congrArg Except.error (Except.error.inj mapped)
  | ok value => cases mapped

theorem map_bind_congr {α β γ δ : Type} {view : α → γ} {result : β → δ}
    {first second : Checked α} {next other : α → Checked β}
    (same : first.map view = second.map view)
    (alike : ∀ left right, view left = view right →
      (next left).map result = (other right).map result) :
    (first >>= next).map result = (second >>= other).map result := by
  cases first with
  | error fault =>
      rw [eq_error_of_map same.symm]
      rfl
  | ok left =>
      obtain ⟨right, rfl, matching⟩ := exists_of_map_eq_ok same.symm
      exact alike left right matching.symm

end Muduo
