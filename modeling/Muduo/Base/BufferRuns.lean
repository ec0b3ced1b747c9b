import Muduo.Base.Buffer
import Muduo.Library.Machine
import Mathlib.Logic.Function.Basic

/-!
# Runs over a family of buffers

Any number of buffers, each of its own initial size, go through operations
whose asserted preconditions hold.  Beside the buffers runs the plain meaning
of the same operations on byte sequences, and the two agree after every run.
-/

namespace Muduo

open Library

/-- The operations on one buffer.  `retrieveUntil len` passes the pointer
`peek() + len`; `writeReserved` reserves, copies to `beginWrite()` and declares
the copied bytes written. -/
inductive BufferOp where
  | append (data : List Byte)
  | prepend (data : List Byte)
  | retrieve (len : Nat)
  | retrieveUntil (len : Nat)
  | retrieveAll
  | retrieveAsString (len : Nat)
  | unwrite (len : Nat)
  | ensureWritableBytes (len : Nat)
  | writeReserved (len : Nat) (data : List Byte)
  | readFd (outcome : Except Errno (List Byte))

namespace BufferOp

/-- What the caller has to guarantee before the call. -/
def Precondition (b : Buffer) : BufferOp → Prop
  | append _ => True
  | prepend data => data.length ≤ b.prependableBytes
  | retrieve len => len ≤ b.readableBytes
  | retrieveUntil len => len ≤ b.readableBytes
  | retrieveAll => True
  | retrieveAsString len => len ≤ b.readableBytes
  | unwrite len => len ≤ b.readableBytes
  | ensureWritableBytes _ => True
  | writeReserved len data =>
      ∀ ensured, b.ensureWritableBytes len = .ok ensured →
        data.length ≤ ensured.writableBytes
  | readFd (.ok data) => data.length ≤ b.offered
  | readFd (.error _) => True

def run (b : Buffer) : BufferOp → Checked Buffer
  | append data => b.append data
  | prepend data => b.prepend data
  | retrieve len => b.retrieve len
  | retrieveUntil len => b.retrieveUntil (b.peek + len)
  | retrieveAll => .ok b.retrieveAll
  | retrieveAsString len => do
      let taken ← b.retrieveAsString len
      return taken.2
  | unwrite len => b.unwrite len
  | ensureWritableBytes len => b.ensureWritableBytes len
  | writeReserved len data => do
      let ensured ← b.ensureWritableBytes len
      (ensured.writeAtEnd data).hasWritten data.length
  | readFd outcome => b.readFd outcome

/-- What the operation means for a byte sequence. -/
def onContent (content : List Byte) : BufferOp → List Byte
  | append data => content ++ data
  | prepend data => data ++ content
  | retrieve len => content.drop len
  | retrieveUntil len => content.drop len
  | retrieveAll => []
  | retrieveAsString len => content.drop len
  | unwrite len => content.take (content.length - len)
  | ensureWritableBytes _ => content
  | writeReserved _ data => content ++ data
  | readFd (.ok data) => content ++ data
  | readFd (.error _) => content

def IsPrepend : BufferOp → Prop
  | prepend _ => True
  | _ => False

private theorem run_becomes {b : Buffer} (sound : b.Sound) {op : BufferOp}
    (allowed : op.Precondition b) (other : ¬ op.IsPrepend) :
    ∃ after, op.run b = .ok after ∧
      b.Becomes after (op.onContent b.content) := by
  cases op with
  | append data => exact sound.append data
  | prepend data => exact (other trivial).elim
  | retrieve len => exact sound.retrieve allowed
  | retrieveUntil len => exact sound.retrieveUntil allowed
  | retrieveAll => exact ⟨_, rfl, sound.retrieveAll⟩
  | retrieveAsString len =>
      obtain ⟨after, result, becomes⟩ := sound.retrieveAsString allowed
      exact ⟨after, by simp only [run, result]; rfl, becomes⟩
  | unwrite len => exact sound.unwrite allowed
  | ensureWritableBytes len =>
      obtain ⟨after, result, becomes, _⟩ := sound.ensureWritableBytes len
      exact ⟨after, result, becomes⟩
  | writeReserved len data =>
      obtain ⟨ensured, result, first, _⟩ := sound.ensureWritableBytes len
      have room := allowed ensured result
      have second := first.sound.extended room
      rw [first.content_eq] at second
      refine ⟨ensured.extended data, ?_, first.trans second⟩
      simp only [run, result, ok_bind]
      exact first.sound.hasWritten_writeAtEnd room
  | readFd outcome =>
      cases outcome with
      | ok data => exact sound.readFd data
      | error errno => exact sound.readFd_error errno

/-- The operation completes, keeps the indices in order, and does to the
content what it means for byte sequences. -/
theorem run_spec {b : Buffer} (sound : b.Sound) {op : BufferOp}
    (allowed : op.Precondition b) :
    ∃ after, op.run b = .ok after ∧ after.Sound ∧
      after.content = op.onContent b.content ∧
      (¬ op.IsPrepend →
        min kCheapPrepend b.prependableBytes ≤ after.prependableBytes) := by
  by_cases isPrepend : op.IsPrepend
  · cases op with
    | prepend data =>
        obtain ⟨after, result, afterSound, content⟩ := sound.prepend allowed
        exact ⟨after, result, afterSound, content,
          fun other => (other trivial).elim⟩
    | _ => exact isPrepend.elim
  · obtain ⟨after, result, becomes⟩ := run_becomes sound allowed isPrepend
    exact ⟨after, result, becomes.sound, becomes.content_eq,
      fun _ => becomes.reserve⟩

end BufferOp

/-- An operation on one of the buffers, or a swap of two of them. -/
inductive BuffersOp (ι : Type) where
  | on (target : ι) (op : BufferOp)
  | swap (first second : ι)

namespace BuffersOp

variable {ι : Type} [DecidableEq ι]

def Precondition (buffers : ι → Buffer) : BuffersOp ι → Prop
  | on target op => op.Precondition (buffers target)
  | swap _ _ => True

def run (buffers : ι → Buffer) : BuffersOp ι → Checked (ι → Buffer)
  | on target op => do
      let after ← op.run (buffers target)
      return Function.update buffers target after
  | swap first second =>
      .ok (Function.update (Function.update buffers first (buffers second))
        second (buffers first))

def onContents (contents : ι → List Byte) : BuffersOp ι → ι → List Byte
  | on target op =>
      Function.update contents target (op.onContent (contents target))
  | swap first second =>
      Function.update (Function.update contents first (contents second))
        second (contents first)

/-- `prepend` and `swap` are the operations that may take the reserve. -/
def MayTakeReserve : BuffersOp ι → Prop
  | on _ op => op.IsPrepend
  | swap _ _ => True

private theorem forall_update {α : Type} {property : ι → α → Prop}
    {values : ι → α} (all : ∀ index, property index (values index))
    {target : ι} {value : α} (here : property target value) :
    ∀ index, property index (Function.update values target value index) := by
  intro index
  by_cases same : index = target
  · subst same
    simpa using here
  · simpa [Function.update_of_ne same] using all index

/-- One step keeps every buffer sound and agrees with the byte sequences. -/
theorem run_spec {buffers : ι → Buffer}
    (sound : ∀ index, (buffers index).Sound) {op : BuffersOp ι}
    (allowed : op.Precondition buffers) :
    ∃ after, op.run buffers = .ok after ∧ (∀ index, (after index).Sound) ∧
      (∀ index, (after index).content =
        op.onContents (fun other => (buffers other).content) index) ∧
      (¬ op.MayTakeReserve → ∀ index,
        min kCheapPrepend (buffers index).prependableBytes ≤
          (after index).prependableBytes) := by
  cases op with
  | on target op =>
      obtain ⟨after, result, afterSound, content, reserve⟩ :=
        BufferOp.run_spec (sound target) allowed
      refine ⟨Function.update buffers target after, ?_, ?_, ?_, ?_⟩
      · simp only [run, result]
        rfl
      · exact forall_update sound afterSound
      · intro index
        by_cases same : index = target
        · subst same
          simp [onContents, content]
        · simp [onContents, Function.update_of_ne same]
      · intro other index
        by_cases same : index = target
        · subst same
          simpa using reserve other
        · rw [Function.update_of_ne same]
          exact Nat.min_le_right _ _
  | swap first second =>
      refine ⟨_, rfl, ?_, ?_, fun other => (other trivial).elim⟩
      · exact forall_update (forall_update sound (sound second))
          (sound first)
      · intro index
        simp only [onContents]
        by_cases isSecond : index = second
        · subst isSecond
          simp
        · by_cases isFirst : index = first
          · subst isFirst
            simp [Function.update_of_ne isSecond]
          · simp [Function.update_of_ne isSecond,
              Function.update_of_ne isFirst]

end BuffersOp

section Runs

variable {ι : Type} [DecidableEq ι]

/-- All runs over a family of buffers. -/
def buffersMachine (ι : Type) [DecidableEq ι] :
    Machine (ι → Buffer) (BuffersOp ι) Fault where
  enabled buffers op := op.Precondition buffers
  step buffers op := op.run buffers

def freshBuffers (initialSize : ι → Nat) : ι → Buffer :=
  fun index => Buffer.new (initialSize index)

/-- The byte sequences after the operations, from empty ones. -/
def contentsAfter (ops : List (BuffersOp ι)) : ι → List Byte :=
  ops.foldl BuffersOp.onContents (fun _ => [])

private theorem run_sound_contents {initialSize : ι → Nat}
    {ops : List (BuffersOp ι)} {buffers : ι → Buffer}
    (run : (buffersMachine ι).Run (freshBuffers initialSize) ops buffers) :
    (∀ index, (buffers index).Sound) ∧
      (fun index => (buffers index).content) = contentsAfter ops := by
  refine Machine.Run.invariant
    (fun ops buffers => (∀ index, (buffers index).Sound) ∧
      (fun index => (buffers index).content) = contentsAfter ops)
    ?_ ?_ run
  · constructor
    · intro index
      exact Buffer.new_sound _
    · funext index
      simp [freshBuffers, contentsAfter]
  · intro ops buffers op next _ agree allowed stepped
    obtain ⟨after, result, sound, contents, _⟩ :=
      BuffersOp.run_spec agree.1 allowed
    have same : after = next := by
      have stepped : op.run buffers = .ok next := stepped
      rw [result] at stepped
      cases stepped
      rfl
    subst same
    refine ⟨sound, ?_⟩
    funext index
    rw [contents index, agree.2]
    simp [contentsAfter]

/-- In every run the indices of every buffer stay in order and no assert of
the buffer code fails, the reserve for prepending survives every operation but
`prepend` and `swap`, and the contents are those of plain byte sequences. -/
theorem buffers_refine_contents (initialSize : ι → Nat)
    {ops : List (BuffersOp ι)} {buffers : ι → Buffer}
    (run : (buffersMachine ι).Run (freshBuffers initialSize) ops buffers) :
    (∀ index, (buffers index).Sound ∧
      (buffers index).content = contentsAfter ops index) ∧
    (∀ op : BuffersOp ι, op.Precondition buffers →
      ∃ next, op.run buffers = .ok next ∧
        (¬ op.MayTakeReserve → ∀ index,
          min kCheapPrepend (buffers index).prependableBytes ≤
            (next index).prependableBytes)) ∧
    (∀ index len, len ≤ (buffers index).readableBytes →
      ∃ rest, (buffers index).retrieveAsString len =
        .ok ((contentsAfter ops index).take len, rest)) := by
  obtain ⟨sound, contents⟩ := run_sound_contents run
  refine ⟨?_, ?_, ?_⟩
  · intro index
    exact ⟨sound index, congrFun contents index⟩
  · intro op allowed
    obtain ⟨next, result, _, _, reserve⟩ := BuffersOp.run_spec sound allowed
    exact ⟨next, result, reserve⟩
  · intro index len fits
    obtain ⟨rest, result, _⟩ := (sound index).retrieveAsString fits
    rw [← congrFun contents index]
    exact ⟨rest, result⟩

/-- Two buffers without initial space: one is filled by `append` and a read,
cut at both ends, given a header and swapped with the other. -/
theorem buffers_refine_contents_two :
    ∃ buffers, (buffersMachine Bool).Run (freshBuffers fun _ => 0)
        [.on false (.append [1, 2, 3]), .on false (.readFd (.ok [4, 5])),
          .on false (.retrieve 1), .on false (.unwrite 1),
          .on false (.prepend [9]), .swap false true] buffers ∧
      (buffers true).Sound ∧ (buffers true).content = [9, 2, 3, 4] := by
  have run : ∃ buffers, (buffersMachine Bool).Run (freshBuffers fun _ => 0)
      [.on false (.append [1, 2, 3]), .on false (.readFd (.ok [4, 5])),
        .on false (.retrieve 1), .on false (.unwrite 1),
        .on false (.prepend [9]), .swap false true] buffers := by
    refine ⟨_, .head (.head (.head (.head (.head (.head .refl trivial rfl)
      ?_ rfl) ?_ rfl) ?_ rfl) ?_ rfl) trivial rfl⟩ <;>
      exact Nat.le_of_ble_eq_true rfl
  obtain ⟨buffers, run⟩ := run
  obtain ⟨sound, content⟩ := (buffers_refine_contents _ run).1 true
  exact ⟨buffers, run, sound, content⟩

end Runs

end Muduo
