import Muduo.Base.Buffer
import Mathlib.Data.Int.ModEq

/-!
# Appending strings in machine arithmetic

`StringPiece` keeps its length in an `int`, and `Buffer` computes in `size_t`.
Here the functions of `Buffer` under `append` are given once more with sums and
differences modulo `2 ^ 64`, and with a vector that throws where it cannot grow;
as long as nothing wraps around they are those of the exact model.
-/

namespace Muduo

open Library

/-- A sum of two `size_t`. -/
def sizeAdd (a b : Nat) : Nat := (a + b) % 2 ^ 64

/-- A difference of two `size_t`. -/
def sizeSub (a b : Nat) : Nat := (a + 2 ^ 64 - b) % 2 ^ 64

/-- `static_cast<int>` of a `size_t`: the low 32 bits in two's complement. -/
def intOfSize (size : Nat) : Int :=
  if size % 4294967296 < 2147483648 then (size % 4294967296 : Nat)
  else (size % 4294967296 : Nat) - 4294967296

/-- The conversion of an `int` to `size_t`, with 64 bits. -/
def sizeOfInt (value : Int) : Nat := (value % 18446744073709551616).toNat

/-- `ptr_` with the bytes that may be read from there. -/
structure StringPiece where
  ptr_ : List Byte
  length_ : Int
  deriving DecidableEq, Repr

namespace StringPiece

/-- `StringPiece(const std::string&)` -/
def ofString (str : List Byte) : StringPiece :=
  { ptr_ := str, length_ := intOfSize str.length }

def data (piece : StringPiece) : List Byte := piece.ptr_

def size (piece : StringPiece) : Int := piece.length_

end StringPiece

/-- Whether a function returns, or leaves by an exception. -/
inductive Completion where
  | returned
  | threw
  deriving DecidableEq, Repr

namespace Buffer

namespace SizeT

def readableBytes (b : Buffer) : Nat := sizeSub b.writerIndex b.readerIndex

def writableBytes (b : Buffer) : Nat := sizeSub b.buffer.length b.writerIndex

/-- `buffer_.resize(size)`, which throws above the `limit` of the vector and then
leaves it as it was. -/
def resizeTo (limit : Nat) (b : Buffer) (size : Nat) : Completion × Buffer :=
  if limit < size then (.threw, b)
  else (.returned, { b with buffer := resize b.buffer size 0 })

def makeSpace (limit : Nat) (b : Buffer) (len : Nat) :
    Checked (Completion × Buffer) := do
  if sizeAdd (writableBytes b) b.prependableBytes <
      sizeAdd len kCheapPrepend then
    return resizeTo limit b (sizeAdd b.writerIndex len)
  else
    assertThat (kCheapPrepend < b.readerIndex) .makeSpaceReaderIndex
    let readable := readableBytes b
    let moved : Buffer :=
      { buffer := overwrite b.buffer kCheapPrepend
          (b.range b.readerIndex b.writerIndex)
        readerIndex := kCheapPrepend
        writerIndex := sizeAdd kCheapPrepend readable }
    assertThat (readable = readableBytes moved) .makeSpaceReadable
    return (.returned, moved)

def ensureWritableBytes (limit : Nat) (b : Buffer) (len : Nat) :
    Checked (Completion × Buffer) := do
  let (completion, ensured) ←
    if writableBytes b < len then makeSpace limit b len
    else pure (.returned, b)
  if completion = .threw then
    return (.threw, ensured)
  assertThat (len ≤ writableBytes ensured) .ensureWritableBytes
  return (.returned, ensured)

def hasWritten (b : Buffer) (len : Nat) : Checked Buffer := do
  assertThat (len ≤ writableBytes b) .hasWritten
  return { b with writerIndex := sizeAdd b.writerIndex len }

/-- `append(const char* data, size_t len)`; `std::copy` may only read the bytes of
the string. -/
def append (limit : Nat) (b : Buffer) (data : List Byte) (len : Nat) :
    Checked (Completion × Buffer) := do
  let (completion, ensured) ← ensureWritableBytes limit b len
  if completion = .threw then
    return (.threw, ensured)
  assertThat (len ≤ data.length) .copyRange
  let written ← hasWritten (ensured.writeAtEnd (data.take len)) len
  return (.returned, written)

/-- `append(const StringPiece&)` -/
def appendPiece (limit : Nat) (b : Buffer) (str : StringPiece) :
    Checked (Completion × Buffer) :=
  append limit b str.data (sizeOfInt str.size)

/-- `append` of a string, which becomes a `StringPiece`. -/
def appendString (limit : Nat) (b : Buffer) (str : List Byte) :
    Checked (Completion × Buffer) :=
  appendPiece limit b (.ofString str)

/-- The vector would have to be enlarged to a size that it cannot have. -/
def ResizeThrows (limit : Nat) (b : Buffer) (len : Nat) : Prop :=
  writableBytes b < len ∧
  sizeAdd (writableBytes b) b.prependableBytes < sizeAdd len kCheapPrepend ∧
  limit < sizeAdd b.writerIndex len

instance (limit : Nat) (b : Buffer) (len : Nat) :
    Decidable (ResizeThrows limit b len) :=
  inferInstanceAs (Decidable (_ ∧ _ ∧ _))

theorem sizeAdd_eq {a b : Nat} (small : a + b < 2 ^ 64) :
    sizeAdd a b = a + b := Nat.mod_eq_of_lt small

theorem sizeSub_eq {a b : Nat} (ordered : b ≤ a) (small : a < 2 ^ 64) :
    sizeSub a b = a - b := by
  simp only [sizeSub]
  omega

/-- A length passes through `int` unchanged exactly below `2 ^ 31`. -/
theorem sizeOfInt_eq_iff {size : Nat} (small : size < 2 ^ 63) :
    sizeOfInt (intOfSize size) = size ↔ size < 2 ^ 31 := by
  unfold sizeOfInt intOfSize
  split <;> omega

/-- The vector of the buffer can have the size that it has. -/
structure Held (limit : Nat) (b : Buffer) : Prop where
  sound : b.Sound
  size_le : b.buffer.length ≤ limit
  limit_lt : limit < 2 ^ 63

variable {limit : Nat} {b : Buffer} {len : Nat}

namespace Held

theorem writableBytes (held : Held limit b) :
    SizeT.writableBytes b = b.writableBytes := by
  have bound := held.sound.writer_le_size
  have size := held.size_le
  have small := held.limit_lt
  exact sizeSub_eq bound (by omega)

theorem readableBytes (held : Held limit b) :
    SizeT.readableBytes b = b.readableBytes := by
  have ordered := held.sound.reader_le_writer
  have bound := held.sound.writer_le_size
  have size := held.size_le
  have small := held.limit_lt
  exact sizeSub_eq ordered (by omega)

theorem sums (held : Held limit b) (ordinary : len < 2 ^ 63) :
    sizeAdd (SizeT.writableBytes b) b.prependableBytes =
        b.writableBytes + b.prependableBytes ∧
      sizeAdd len kCheapPrepend = len + kCheapPrepend ∧
      sizeAdd b.writerIndex len = b.writerIndex + len := by
  have ordered := held.sound.reader_le_writer
  have bound := held.sound.writer_le_size
  have size := held.size_le
  have small := held.limit_lt
  have eight : kCheapPrepend = 8 := rfl
  rw [held.writableBytes]
  refine ⟨sizeAdd_eq ?_, sizeAdd_eq ?_, sizeAdd_eq ?_⟩
  · simp only [Buffer.writableBytes, prependableBytes]
    omega
  · omega
  · omega

end Held

theorem makeSpace_grows (held : Held limit b) (ordinary : len < 2 ^ 63)
    (grow : b.writableBytes + b.prependableBytes < len + kCheapPrepend) :
    makeSpace limit b len =
        .ok (resizeTo limit b (b.writerIndex + len)) ∧
      b.makeSpace len =
        .ok { b with buffer := resize b.buffer (b.writerIndex + len) 0 } := by
  obtain ⟨space, wanted, size⟩ := held.sums ordinary
  constructor
  · rw [makeSpace, space, wanted, size, if_pos grow]
    rfl
  · rw [Buffer.makeSpace, if_pos grow]
    rfl

theorem makeSpace_slides (held : Held limit b) (ordinary : len < 2 ^ 63)
    (short : b.writableBytes < len)
    (enough : ¬ b.writableBytes + b.prependableBytes < len + kCheapPrepend) :
    ∃ moved, makeSpace limit b len = .ok (.returned, moved) ∧
      b.makeSpace len = .ok moved ∧ moved.buffer.length ≤ limit := by
  obtain ⟨space, wanted, _⟩ := held.sums ordinary
  have ordered := held.sound.reader_le_writer
  have bound := held.sound.writer_le_size
  have limited := held.size_le
  have small := held.limit_lt
  have eight : kCheapPrepend = 8 := rfl
  have slides : kCheapPrepend < b.readerIndex := by
    simp only [prependableBytes] at enough
    omega
  have room : kCheapPrepend + b.readableBytes ≤ b.buffer.length := by
    simp only [Buffer.readableBytes]
    omega
  let moved : Buffer :=
    { buffer := overwrite b.buffer kCheapPrepend
        (b.range b.readerIndex b.writerIndex)
      readerIndex := kCheapPrepend
      writerIndex := kCheapPrepend + b.readableBytes }
  have last : sizeAdd kCheapPrepend b.readableBytes =
      kCheapPrepend + b.readableBytes := sizeAdd_eq (by omega)
  have kept : b.readableBytes = moved.readableBytes :=
    (Nat.add_sub_cancel_left _ _).symm
  have keptAgain : b.readableBytes = SizeT.readableBytes moved := by
    rw [kept]
    exact (sizeSub_eq (Nat.le_add_right _ _) (by omega)).symm
  have size : (b.range b.readerIndex b.writerIndex).length =
      b.readableBytes := held.sound.length_content
  refine ⟨moved, ?_, ?_, ?_⟩
  · simp only [makeSpace, space, wanted, if_neg enough, assertThat_bind,
      if_pos slides, held.readableBytes, last]
    exact if_pos keptAgain
  · simp only [Buffer.makeSpace, if_neg enough, assertThat_bind, if_pos slides]
    exact if_pos kept
  · simp only [moved]
    rw [length_overwrite (by omega)]
    exact limited

/-- Making space in machine arithmetic throws, or does what the exact model
does. -/
theorem makeSpace_spec (held : Held limit b) (ordinary : len < 2 ^ 63)
    (short : b.writableBytes < len) :
    (ResizeThrows limit b len ∧ makeSpace limit b len = .ok (.threw, b)) ∨
    (¬ ResizeThrows limit b len ∧ ∃ ensured,
      makeSpace limit b len = .ok (.returned, ensured) ∧
      b.makeSpace len = .ok ensured ∧ Held limit ensured) := by
  obtain ⟨space, wanted, size⟩ := held.sums ordinary
  have throws_iff : ResizeThrows limit b len ↔
      b.writableBytes + b.prependableBytes < len + kCheapPrepend ∧
        limit < b.writerIndex + len := by
    rw [ResizeThrows, space, wanted, size, held.writableBytes]
    simp [short]
  obtain ⟨ensured, exact, becomes, _⟩ := held.sound.makeSpace short
  by_cases grow : b.writableBytes + b.prependableBytes < len + kCheapPrepend
  · obtain ⟨resized, grown⟩ := makeSpace_grows held ordinary grow
    by_cases beyond : limit < b.writerIndex + len
    · refine .inl ⟨throws_iff.mpr ⟨grow, beyond⟩, ?_⟩
      rw [resized, resizeTo, if_pos beyond]
    · obtain rfl := Except.ok.inj (exact.symm.trans grown)
      refine .inr ⟨fun throws => beyond (throws_iff.mp throws).2, _, ?_, grown,
        becomes.sound, ?_, held.limit_lt⟩
      · rw [resized, resizeTo, if_neg beyond]
      · have longer : b.buffer.length ≤ b.writerIndex + len := by
          simp only [Buffer.writableBytes] at short
          omega
        rw [length_resize longer]
        omega
  · obtain ⟨moved, slid, slidExactly, inside⟩ :=
      makeSpace_slides held ordinary short grow
    obtain rfl := Except.ok.inj (exact.symm.trans slidExactly)
    exact .inr ⟨fun throws => grow (throws_iff.mp throws).1, _, slid,
      slidExactly, becomes.sound, inside, held.limit_lt⟩

theorem ensureWritableBytes_spec (held : Held limit b)
    (ordinary : len < 2 ^ 63) :
    (ResizeThrows limit b len ∧
      ensureWritableBytes limit b len = .ok (.threw, b)) ∨
    (¬ ResizeThrows limit b len ∧ ∃ ensured,
      ensureWritableBytes limit b len = .ok (.returned, ensured) ∧
      b.ensureWritableBytes len = .ok ensured ∧ Held limit ensured) := by
  by_cases short : b.writableBytes < len
  · rcases makeSpace_spec held ordinary short with
      ⟨throws, made⟩ | ⟨returns, ensured, made, exact, after⟩
    · refine .inl ⟨throws, ?_⟩
      simp [ensureWritableBytes, held.writableBytes, short, made, pure,
        Except.pure]
    · obtain ⟨other, result, _, room⟩ := held.sound.makeSpace short
      obtain rfl := Except.ok.inj (result.symm.trans exact)
      refine .inr ⟨returns, other, ?_, ?_, after⟩
      · simp [ensureWritableBytes, held.writableBytes, short, made,
          after.writableBytes, room, pure, Except.pure]
      · simp [Buffer.ensureWritableBytes, short, exact, room, pure, Except.pure]
  · have room : len ≤ b.writableBytes := by omega
    refine .inr ⟨?_, b, ?_, ?_, held⟩
    · intro throws
      have wraps := throws.1
      rw [held.writableBytes] at wraps
      exact short wraps
    · simp [ensureWritableBytes, held.writableBytes, short, room, pure,
        Except.pure]
    · simp [Buffer.ensureWritableBytes, short, room, pure, Except.pure]

theorem hasWritten_spec (held : Held limit b) {data : List Byte}
    (fits : data.length ≤ b.writableBytes) :
    hasWritten (b.writeAtEnd data) data.length = .ok (b.extended data) ∧
      Held limit (b.extended data) := by
  have bound := held.sound.writer_le_size
  have limited := held.size_le
  have small := held.limit_lt
  have inside : b.writerIndex + data.length ≤ b.buffer.length := by
    simp only [Buffer.writableBytes] at fits
    omega
  have size := length_overwrite inside
  have room : writableBytes (b.writeAtEnd data) = b.writableBytes := by
    rw [← held.writableBytes]
    simp only [writableBytes, writeAtEnd, beginWrite, size]
  have last : sizeAdd b.writerIndex data.length =
      b.writerIndex + data.length := sizeAdd_eq (by omega)
  constructor
  · rw [hasWritten, room, assertThat_bind, if_pos fits]
    simp only [writeAtEnd, last]
    rfl
  · refine ⟨(held.sound.extended fits).sound, ?_, small⟩
    simpa only [extended, writeAtEnd, beginWrite, size] using limited

/-- Appending the first bytes of a string throws, or does what the exact model
does. -/
theorem append_spec (held : Held limit b) {data : List Byte}
    (within : len ≤ data.length) (ordinary : len < 2 ^ 63) :
    (ResizeThrows limit b len ∧ append limit b data len = .ok (.threw, b)) ∨
    (¬ ResizeThrows limit b len ∧ ∃ after,
      append limit b data len = .ok (.returned, after) ∧
      b.append (data.take len) = .ok after ∧ Held limit after ∧
      after.content = b.content ++ data.take len) := by
  rcases ensureWritableBytes_spec held ordinary with
    ⟨throws, ensuring⟩ | ⟨returns, ensured, ensuring, exact, after⟩
  · refine .inl ⟨throws, ?_⟩
    simp [append, ensuring, pure, Except.pure]
  · obtain ⟨other, result, becomes, room⟩ :=
      held.sound.ensureWritableBytes len
    obtain rfl := Except.ok.inj (result.symm.trans exact)
    have size : (data.take len).length = len := List.length_take_of_le within
    have fits : (data.take len).length ≤ other.writableBytes := by omega
    obtain ⟨written, writtenHeld⟩ := hasWritten_spec after fits
    rw [size] at written
    refine .inr ⟨returns, _, ?_, ?_, writtenHeld, ?_⟩
    · simp [append, ensuring, within, written, pure, Except.pure]
    · rw [Buffer.append, size, exact, ok_bind]
      have writing := after.sound.hasWritten_writeAtEnd fits
      rw [size] at writing
      exact writing
    · rw [(after.sound.extended fits).content_eq, becomes.content_eq]

theorem makeSpace_threw {after : Buffer}
    (threw : makeSpace limit b len = .ok (.threw, after)) :
    sizeAdd (writableBytes b) b.prependableBytes <
        sizeAdd len kCheapPrepend ∧
      limit < sizeAdd b.writerIndex len ∧ after = b := by
  rw [makeSpace] at threw
  split at threw
  next grow =>
    have resized := Except.ok.inj threw
    rw [resizeTo] at resized
    split at resized
    next beyond => exact ⟨grow, beyond, (congrArg Prod.snd resized).symm⟩
    next => cases congrArg Prod.fst resized
  next =>
    obtain ⟨_, _, asserted⟩ := bind_eq_ok threw
    obtain ⟨_, _, last⟩ := bind_eq_ok asserted
    cases last

theorem ensureWritableBytes_threw {after : Buffer}
    (threw : ensureWritableBytes limit b len = .ok (.threw, after)) :
    ResizeThrows limit b len ∧ after = b := by
  rw [ensureWritableBytes] at threw
  split at threw
  next short =>
    obtain ⟨⟨completion, ensured⟩, made, rest⟩ := bind_eq_ok threw
    cases completion with
    | returned =>
        obtain ⟨_, _, last⟩ := bind_eq_ok rest
        cases last
    | threw =>
        obtain rfl : ensured = after := congrArg Prod.snd (Except.ok.inj rest)
        obtain ⟨grow, beyond, same⟩ := makeSpace_threw made
        exact ⟨⟨short, grow, beyond⟩, same⟩
  next =>
    obtain ⟨first, kept, rest⟩ := bind_eq_ok threw
    obtain rfl := Except.ok.inj kept
    obtain ⟨_, _, last⟩ := bind_eq_ok rest
    cases last

theorem append_of_throws (throws : ResizeThrows limit b len)
    (data : List Byte) : append limit b data len = .ok (.threw, b) := by
  obtain ⟨short, grow, beyond⟩ := throws
  simp [append, ensureWritableBytes, makeSpace, resizeTo, short, grow, beyond,
    pure, Except.pure]

theorem append_completed {data : List Byte} {completion : Completion}
    {after : Buffer}
    (completed : append limit b data len = .ok (completion, after)) :
    (completion = .threw ∧ ResizeThrows limit b len ∧ after = b) ∨
      (completion = .returned ∧ len ≤ data.length) := by
  obtain ⟨⟨first, ensured⟩, ensuring, rest⟩ := bind_eq_ok completed
  cases first with
  | threw =>
      obtain ⟨rfl, rfl⟩ := Prod.mk.inj (Except.ok.inj rest)
      exact .inl ⟨rfl, ensureWritableBytes_threw ensuring⟩
  | returned =>
      obtain ⟨_, asserted, written⟩ := bind_eq_ok rest
      obtain ⟨_, _, last⟩ := bind_eq_ok written
      obtain ⟨rfl, _⟩ := Prod.mk.inj (Except.ok.inj last)
      refine .inr ⟨rfl, ?_⟩
      by_contra beyond
      simp [assertThat, beyond] at asserted

/-- The length that reaches `append(const char*, size_t)` for a string. -/
def truncated (str : List Byte) : Nat := sizeOfInt (intOfSize str.length)

theorem appendString_eq (str : List Byte) :
    appendString limit b str = append limit b str (truncated str) := by
  rfl

theorem truncated_eq_iff {str : List Byte} (small : str.length < 2 ^ 63) :
    truncated str = str.length ↔ str.length < 2 ^ 31 := by
  rw [truncated, sizeOfInt_eq_iff small]

/-- What passes through an `int` and is still a length is short. -/
theorem truncated_lt {str : List Byte} (small : str.length < 2 ^ 63)
    (within : truncated str ≤ str.length) : truncated str < 2 ^ 31 := by
  revert within
  unfold truncated sizeOfInt intOfSize
  split <;> omega

/-- What a buffer gets of a string. -/
def passed (str : List Byte) : List Byte := str.take (truncated str)

theorem passed_eq_self {str : List Byte} (short : str.length < 2 ^ 31) :
    passed str = str := by
  have small : str.length < 2 ^ 63 := by omega
  rw [passed, (truncated_eq_iff small).mpr short, List.take_length]

theorem length_passed_lt {str : List Byte} (small : str.length < 2 ^ 63)
    (within : truncated str ≤ str.length) :
    (passed str).length < 2 ^ 31 := by
  rw [passed, List.length_take_of_le within]
  exact truncated_lt small within

theorem Held.not_resizeThrows (held : Held limit b)
    (room : b.readableBytes + 2 * len + kCheapPrepend ≤ limit) :
    ¬ ResizeThrows limit b len := by
  rintro ⟨short, grow, beyond⟩
  have small := held.limit_lt
  have ordered := held.sound.reader_le_writer
  have bound := held.sound.writer_le_size
  obtain ⟨space, wanted, size⟩ := held.sums (by omega : len < 2 ^ 63)
  rw [space, wanted] at grow
  rw [size] at beyond
  simp only [Buffer.writableBytes, Buffer.readableBytes,
    prependableBytes] at grow room
  omega

theorem appendString_fits (held : Held limit b) {str : List Byte}
    (within : truncated str ≤ str.length)
    (room : b.content.length + 2 * (passed str).length + kCheapPrepend ≤
      limit) :
    ∃ after, appendString limit b str = .ok (.returned, after) ∧
      Held limit after ∧ after.content = b.content ++ passed str := by
  have small := held.limit_lt
  rw [held.sound.length_content, passed, List.length_take_of_le within] at room
  rcases append_spec held within (by omega) with
    ⟨throws, _⟩ | ⟨_, after, returned, _, afterHeld, content⟩
  · exact absurd throws (held.not_resizeThrows room)
  · exact ⟨after, returned, afterHeld, content⟩

/-- What stops an `append`, or one that throws. -/
def appendFaults : List Fault :=
  [.makeSpaceReaderIndex, .makeSpaceReadable, .ensureWritableBytes, .copyRange,
    .hasWritten, .lengthError]

theorem eq_of_assertThat {condition : Prop} [Decidable condition]
    {named fault : Fault}
    (failed : assertThat condition named = .error fault) : fault = named := by
  unfold assertThat at failed
  split at failed
  · cases failed
  · exact (Except.error.inj failed).symm

theorem makeSpace_fault {fault : Fault}
    (failed : makeSpace limit b len = .error fault) :
    fault ∈ appendFaults := by
  rw [makeSpace] at failed
  split at failed
  next grow => cases failed
  next slide =>
    rcases bind_eq_error failed with first | ⟨_, _, failed⟩
    · rw [eq_of_assertThat first]
      decide
    · rcases bind_eq_error failed with second | ⟨_, _, last⟩
      · rw [eq_of_assertThat second]
        decide
      · cases last

theorem ensureWritableBytes_fault {fault : Fault}
    (failed : ensureWritableBytes limit b len = .error fault) :
    fault ∈ appendFaults := by
  have rest : ∀ first : Completion × Buffer,
      (do
        if first.1 = .threw then
          return (.threw, first.2)
        assertThat (len ≤ writableBytes first.2) .ensureWritableBytes
        return (.returned, first.2) : Checked (Completion × Buffer)) =
          .error fault → fault ∈ appendFaults := by
    rintro ⟨completion, ensured⟩ failed
    cases completion with
    | threw => cases failed
    | returned =>
        rcases bind_eq_error failed with short | ⟨_, _, last⟩
        · rw [eq_of_assertThat short]
          decide
        · cases last
  rw [ensureWritableBytes] at failed
  split at failed
  · rcases bind_eq_error failed with making | ⟨first, _, failed⟩
    · exact makeSpace_fault making
    · exact rest first failed
  · exact rest (.returned, b) failed

theorem append_fault {data : List Byte} {fault : Fault}
    (failed : append limit b data len = .error fault) :
    fault ∈ appendFaults := by
  rcases bind_eq_error failed with ensuring | ⟨⟨completion, ensured⟩, _, failed⟩
  · exact ensureWritableBytes_fault ensuring
  · cases completion with
    | threw => cases failed
    | returned =>
        rcases bind_eq_error failed with range | ⟨_, _, failed⟩
        · rw [eq_of_assertThat range]
          decide
        · rcases bind_eq_error failed with written | ⟨_, _, last⟩
          · rcases bind_eq_error written with short | ⟨_, _, last⟩
            · rw [eq_of_assertThat short]
              decide
            · cases last
          · cases last

/-- What is asked of `append`: it throws and changes nothing, or all of the string
follows the old content and the indices are in order. -/
def AppendsAll (limit : Nat) (b : Buffer) (str : List Byte) : Prop :=
  appendString limit b str = .ok (.threw, b) ∨
  ∃ after, appendString limit b str = .ok (.returned, after) ∧
    after.content = b.content ++ str ∧
    after.readerIndex ≤ after.writerIndex ∧
    after.writerIndex ≤ after.buffer.length

theorem appendString_returned (held : Held limit b) {str : List Byte}
    (small : str.length < 2 ^ 63) {after : Buffer}
    (returned : appendString limit b str = .ok (.returned, after)) :
    truncated str ≤ str.length ∧ Held limit after ∧
      after.content = b.content ++ str.take (truncated str) := by
  rw [appendString_eq] at returned
  rcases append_completed returned with ⟨threw, _⟩ | ⟨_, within⟩
  · cases threw
  · rcases append_spec held within (by omega) with
      ⟨_, threw⟩ | ⟨_, other, result, _, otherHeld, content⟩
    · cases threw.symm.trans returned
    · obtain ⟨_, rfl⟩ :=
        Prod.mk.inj (Except.ok.inj (result.symm.trans returned))
      exact ⟨within, otherHeld, content⟩

/-- A string is appended as a whole exactly if its length passes through `int`
or the vector refuses to grow. -/
theorem appendsAll_iff (held : Held limit b) {str : List Byte}
    (small : str.length < 2 ^ 63) :
    AppendsAll limit b str ↔
      str.length < 2 ^ 31 ∨ ResizeThrows limit b (truncated str) := by
  constructor
  · rintro (threw | ⟨after, returned, content, _⟩)
    · rw [appendString_eq] at threw
      rcases append_completed threw with ⟨_, throws, _⟩ | ⟨returned, _⟩
      · exact .inr throws
      · cases returned
    · obtain ⟨within, _, appended⟩ := appendString_returned held small returned
      have whole : str.take (truncated str) = str :=
        List.append_cancel_left (appended.symm.trans content)
      have same : truncated str = str.length := by
        have sizes := congrArg List.length whole
        rw [List.length_take_of_le within] at sizes
        exact sizes
      exact .inl ((truncated_eq_iff small).mp same)
  · intro condition
    by_cases ordinary : str.length < 2 ^ 31
    · have same : truncated str = str.length :=
        (truncated_eq_iff small).mpr ordinary
      rcases append_spec held (Nat.le_of_eq same) (by omega) with
        ⟨_, threw⟩ | ⟨_, after, returned, _, afterHeld, content⟩
      · exact .inl threw
      · rw [same, List.take_length] at content
        exact .inr ⟨after, returned, content,
          afterHeld.sound.reader_le_writer, afterHeld.sound.writer_le_size⟩
    · have throws := condition.resolve_left ordinary
      exact .inl (append_of_throws throws str)

end SizeT

end Buffer

end Muduo
