import Muduo.Base.Assert
import Muduo.Library.Search
import Muduo.Library.Window

/-!
# The byte buffer

`Buffer` keeps a vector of bytes and two indices into it; the bytes between
them are the content.  A pointer into the vector is its index.  Sizes are exact
natural numbers, and reading past the end of the vector does not occur once
`Buffer.Sound` holds.
-/

namespace Muduo

open Library

abbrev Byte := UInt8

/-- The bytes of an ASCII literal. -/
def ascii (text : String) : List Byte :=
  text.toList.map Char.toUInt8

inductive Errno where
  | ewouldblock
  | epipe
  | econnreset
  | eintr
  | other (code : Nat)
  deriving DecidableEq, Repr

def kCheapPrepend : Nat := 8

def kInitialSize : Nat := 1024

def kCRLF : List Byte := ascii "\r\n"

/-- `sizeof extrabuf` in `Buffer::readFd`. -/
def kExtraBufSize : Nat := 65536

structure Buffer where
  buffer : List Byte
  readerIndex : Nat
  writerIndex : Nat
  deriving DecidableEq, Repr

namespace Buffer

def new (initialSize : Nat) : Buffer :=
  { buffer := List.replicate (kCheapPrepend + initialSize) 0
    readerIndex := kCheapPrepend
    writerIndex := kCheapPrepend }

def readableBytes (b : Buffer) : Nat := b.writerIndex - b.readerIndex

def writableBytes (b : Buffer) : Nat := b.buffer.length - b.writerIndex

def prependableBytes (b : Buffer) : Nat := b.readerIndex

def peek (b : Buffer) : Nat := b.readerIndex

def beginWrite (b : Buffer) : Nat := b.writerIndex

/-- The bytes of the half-open pointer range `[first, last)`. -/
def range (b : Buffer) (first last : Nat) : List Byte :=
  window b.buffer first last

/-- The readable bytes. -/
def content (b : Buffer) : List Byte := b.range b.peek b.beginWrite

def findCRLF (b : Buffer) : Option Nat :=
  let crlf := b.peek + searchIndex kCRLF (b.range b.peek b.beginWrite)
  if crlf = b.beginWrite then none else some crlf

def retrieveAll (b : Buffer) : Buffer :=
  { b with readerIndex := kCheapPrepend, writerIndex := kCheapPrepend }

def retrieve (b : Buffer) (len : Nat) : Checked Buffer := do
  assertThat (len ≤ b.readableBytes) .retrieve
  if len < b.readableBytes then
    return { b with readerIndex := b.readerIndex + len }
  else
    return b.retrieveAll

def retrieveUntil (b : Buffer) (last : Nat) : Checked Buffer := do
  assertThat (b.peek ≤ last) .retrieveUntilPeek
  assertThat (last ≤ b.beginWrite) .retrieveUntilBeginWrite
  b.retrieve (last - b.peek)

def retrieveAsString (b : Buffer) (len : Nat) :
    Checked (List Byte × Buffer) := do
  assertThat (len ≤ b.readableBytes) .retrieveAsString
  let result := b.range b.peek (b.peek + len)
  let rest ← b.retrieve len
  return (result, rest)

def retrieveAllAsString (b : Buffer) : Checked (List Byte × Buffer) :=
  b.retrieveAsString b.readableBytes

def makeSpace (b : Buffer) (len : Nat) : Checked Buffer := do
  if b.writableBytes + b.prependableBytes < len + kCheapPrepend then
    return { b with buffer := resize b.buffer (b.writerIndex + len) 0 }
  else
    assertThat (kCheapPrepend < b.readerIndex) .makeSpaceReaderIndex
    let readable := b.readableBytes
    let moved : Buffer :=
      { buffer := overwrite b.buffer kCheapPrepend
          (b.range b.readerIndex b.writerIndex)
        readerIndex := kCheapPrepend
        writerIndex := kCheapPrepend + readable }
    assertThat (readable = moved.readableBytes) .makeSpaceReadable
    return moved

def ensureWritableBytes (b : Buffer) (len : Nat) : Checked Buffer := do
  let ensured ←
    if b.writableBytes < len then b.makeSpace len else pure b
  assertThat (len ≤ ensured.writableBytes) .ensureWritableBytes
  return ensured

def hasWritten (b : Buffer) (len : Nat) : Checked Buffer := do
  assertThat (len ≤ b.writableBytes) .hasWritten
  return { b with writerIndex := b.writerIndex + len }

/-- Copying `data` to `beginWrite()`. -/
def writeAtEnd (b : Buffer) (data : List Byte) : Buffer :=
  { b with buffer := overwrite b.buffer b.beginWrite data }

/-- `writeAtEnd` with the bytes declared written. -/
def extended (b : Buffer) (data : List Byte) : Buffer :=
  { b.writeAtEnd data with writerIndex := b.writerIndex + data.length }

def append (b : Buffer) (data : List Byte) : Checked Buffer := do
  let ensured ← b.ensureWritableBytes data.length
  (ensured.writeAtEnd data).hasWritten data.length

def unwrite (b : Buffer) (len : Nat) : Checked Buffer := do
  assertThat (len ≤ b.readableBytes) .unwrite
  return { b with writerIndex := b.writerIndex - len }

def prepend (b : Buffer) (data : List Byte) : Checked Buffer := do
  assertThat (data.length ≤ b.prependableBytes) .prepend
  let readerIndex := b.readerIndex - data.length
  return { b with
    buffer := overwrite b.buffer readerIndex data
    readerIndex := readerIndex }

/-- Total length of the iovecs that `readFd` offers. -/
def offered (b : Buffer) : Nat :=
  if b.writableBytes < kExtraBufSize then b.writableBytes + kExtraBufSize
  else b.writableBytes

/-- `readFd` with what `readv` delivers: the bytes it stored, in order, into the
free space and then into the stack buffer, or an error. -/
def readFd (b : Buffer) (outcome : Except Errno (List Byte)) :
    Checked Buffer :=
  match outcome with
  | .error _ => .ok b
  | .ok data =>
      let stored := b.writeAtEnd (data.take b.writableBytes)
      if data.length ≤ b.writableBytes then
        .ok { stored with writerIndex := b.writerIndex + data.length }
      else
        { stored with writerIndex := b.buffer.length }.append
          (data.drop b.writableBytes)

/-- The index invariant of the class comment. -/
structure Sound (b : Buffer) : Prop where
  reader_le_writer : b.readerIndex ≤ b.writerIndex
  writer_le_size : b.writerIndex ≤ b.buffer.length
  cheap_le_size : kCheapPrepend ≤ b.buffer.length

instance (b : Buffer) : Decidable b.Sound :=
  decidable_of_iff
    (b.readerIndex ≤ b.writerIndex ∧ b.writerIndex ≤ b.buffer.length ∧
      kCheapPrepend ≤ b.buffer.length)
    ⟨fun ⟨reader, writer, cheap⟩ => ⟨reader, writer, cheap⟩,
      fun ⟨reader, writer, cheap⟩ => ⟨reader, writer, cheap⟩⟩

/-- What an operation leaves: a sound buffer with the given content whose
prependable space has not fallen below the reserve. -/
structure Becomes (before after : Buffer) (content : List Byte) : Prop where
  sound : after.Sound
  content_eq : after.content = content
  reserve : min kCheapPrepend before.prependableBytes ≤ after.prependableBytes

theorem Becomes.trans {before middle after : Buffer}
    {content final : List Byte} (first : before.Becomes middle content)
    (second : middle.Becomes after final) : before.Becomes after final := by
  refine ⟨second.sound, second.content_eq, ?_⟩
  have firstReserve := first.reserve
  have secondReserve := second.reserve
  omega

theorem new_sound (initialSize : Nat) : (new initialSize).Sound := by
  constructor <;> simp [new]

@[simp] theorem content_new (initialSize : Nat) :
    (new initialSize).content = [] := by
  simp [content, range, peek, beginWrite, new]

theorem new_asserts (initialSize : Nat) :
    (new initialSize).readableBytes = 0 ∧
      (new initialSize).writableBytes = initialSize ∧
      (new initialSize).prependableBytes = kCheapPrepend := by
  simp [new, readableBytes, writableBytes, prependableBytes]

namespace Sound

variable {b : Buffer}

theorem length_content (sound : b.Sound) :
    b.content.length = b.readableBytes :=
  length_window sound.writer_le_size

theorem refl_becomes (sound : b.Sound) : b.Becomes b b.content :=
  ⟨sound, rfl, Nat.min_le_right _ _⟩

theorem retrieveAll (sound : b.Sound) : b.Becomes b.retrieveAll [] where
  sound := ⟨Nat.le_refl _, sound.cheap_le_size, sound.cheap_le_size⟩
  content_eq := by simp [content, range, peek, beginWrite, Buffer.retrieveAll]
  reserve := Nat.min_le_left _ _

theorem retrieve (sound : b.Sound) {len : Nat}
    (fits : len ≤ b.readableBytes) :
    ∃ after, b.retrieve len = .ok after ∧
      b.Becomes after (b.content.drop len) := by
  have bound := sound.writer_le_size
  by_cases partly : len < b.readableBytes
  · refine ⟨{ b with readerIndex := b.readerIndex + len }, ?_, ?_⟩
    · simp [Buffer.retrieve, fits, partly, pure, Except.pure]
    · constructor
      · simp only [readableBytes] at partly
        exact ⟨by simp only; omega, sound.writer_le_size, sound.cheap_le_size⟩
      · simp [content, range, peek, beginWrite]
      · simp only [prependableBytes]
        omega
  · have all : len = b.content.length := by
      rw [sound.length_content]
      omega
    refine ⟨b.retrieveAll, ?_, ?_⟩
    · simp [Buffer.retrieve, fits, partly, pure, Except.pure]
    · rw [all, List.drop_length]
      exact sound.retrieveAll

/-- The end is given by its distance from `peek()`. -/
theorem retrieveUntil (sound : b.Sound) {len : Nat}
    (fits : len ≤ b.readableBytes) :
    ∃ after, b.retrieveUntil (b.peek + len) = .ok after ∧
      b.Becomes after (b.content.drop len) := by
  have ordered := sound.reader_le_writer
  have inside : b.peek + len ≤ b.beginWrite := by
    simp only [readableBytes, peek, beginWrite] at fits ⊢
    omega
  obtain ⟨after, result, becomes⟩ := sound.retrieve fits
  exact ⟨after, by simp [Buffer.retrieveUntil, inside, result], becomes⟩

theorem retrieveAsString (sound : b.Sound) {len : Nat}
    (fits : len ≤ b.readableBytes) :
    ∃ after, b.retrieveAsString len = .ok (b.content.take len, after) ∧
      b.Becomes after (b.content.drop len) := by
  have ordered := sound.reader_le_writer
  obtain ⟨after, result, becomes⟩ := sound.retrieve fits
  have text : b.range b.peek (b.peek + len) = b.content.take len := by
    simp only [readableBytes] at fits
    exact (take_window b.buffer (by simp only [peek, beginWrite]; omega)).symm
  refine ⟨after, ?_, becomes⟩
  simp [Buffer.retrieveAsString, fits, result, text, pure, Except.pure]

theorem unwrite (sound : b.Sound) {len : Nat}
    (fits : len ≤ b.readableBytes) :
    ∃ after, b.unwrite len = .ok after ∧
      b.Becomes after (b.content.take (b.content.length - len)) := by
  have ordered := sound.reader_le_writer
  have bound := sound.writer_le_size
  refine ⟨{ b with writerIndex := b.writerIndex - len }, ?_, ?_⟩
  · simp [Buffer.unwrite, fits, pure, Except.pure]
  · rw [sound.length_content]
    simp only [readableBytes] at fits ⊢
    constructor
    · exact ⟨by simp only; omega, by simp only; omega, sound.cheap_le_size⟩
    · rw [content, content, range, range, take_window]
      · simp only [peek, beginWrite]
        congr 1
        omega
      · simp only [peek, beginWrite]
        omega
    · exact Nat.min_le_right _ _

theorem prepend (sound : b.Sound) {data : List Byte}
    (fits : data.length ≤ b.prependableBytes) :
    ∃ after, b.prepend data = .ok after ∧ after.Sound ∧
      after.content = data ++ b.content := by
  have ordered := sound.reader_le_writer
  have bound := sound.writer_le_size
  refine ⟨{ b with
    buffer := overwrite b.buffer (b.readerIndex - data.length) data
    readerIndex := b.readerIndex - data.length }, ?_, ?_, ?_⟩
  · simp [Buffer.prepend, fits, pure, Except.pure]
  · simp only [prependableBytes] at fits
    have size : (overwrite b.buffer (b.readerIndex - data.length)
        data).length = b.buffer.length := length_overwrite (by omega)
    exact ⟨by simp only; omega, by simp only [size]; omega,
      by simp only [size]; exact sound.cheap_le_size⟩
  · simp only [prependableBytes] at fits
    simp only [content, range, peek, beginWrite]
    rw [window_overwrite_front (by omega) bound]
    congr 2
    omega

theorem makeSpace (sound : b.Sound) {len : Nat}
    (short : b.writableBytes < len) :
    ∃ after, b.makeSpace len = .ok after ∧ b.Becomes after b.content ∧
      len ≤ after.writableBytes := by
  have ordered := sound.reader_le_writer
  have bound := sound.writer_le_size
  have cheap := sound.cheap_le_size
  simp only [writableBytes] at short
  by_cases grow :
      b.writableBytes + b.prependableBytes < len + kCheapPrepend
  · have grows : b.buffer.length ≤ b.writerIndex + len := by omega
    refine ⟨{ b with buffer := resize b.buffer (b.writerIndex + len) 0 },
      ?_, ?_, ?_⟩
    · simp [Buffer.makeSpace, grow, pure, Except.pure]
    · constructor
      · constructor <;> simp only [length_resize grows] <;> omega
      · exact window_resize bound grows
      · exact Nat.min_le_right _ _
    · simp only [writableBytes, length_resize grows]
      omega
  · simp only [writableBytes, prependableBytes] at grow
    have slides : kCheapPrepend < b.readerIndex := by omega
    let data := b.range b.readerIndex b.writerIndex
    have size : data.length = b.readableBytes := sound.length_content
    have fits : kCheapPrepend + data.length ≤ b.buffer.length := by
      rw [size]
      simp only [readableBytes]
      omega
    have moved := length_overwrite fits
    refine ⟨{ buffer := overwrite b.buffer kCheapPrepend data
              readerIndex := kCheapPrepend
              writerIndex := kCheapPrepend + b.readableBytes }, ?_, ?_, ?_⟩
    · have kept : ¬ b.writableBytes + b.prependableBytes <
          len + kCheapPrepend := by
        simpa only [writableBytes, prependableBytes] using grow
      simp [Buffer.makeSpace, kept, slides, readableBytes, data, pure,
        Except.pure]
    · constructor
      · rw [size] at fits
        exact ⟨Nat.le_add_right _ _, by simpa only [moved] using fits,
          by simpa only [moved] using cheap⟩
      · simp only [content, range, peek, beginWrite]
        rw [← size]
        exact window_overwrite_self fits
      · exact Nat.min_le_left _ _
    · simp only [writableBytes, moved, readableBytes]
      omega

theorem ensureWritableBytes (sound : b.Sound) (len : Nat) :
    ∃ after, b.ensureWritableBytes len = .ok after ∧
      b.Becomes after b.content ∧ len ≤ after.writableBytes := by
  by_cases short : b.writableBytes < len
  · obtain ⟨after, result, becomes, room⟩ := sound.makeSpace short
    refine ⟨after, ?_, becomes, room⟩
    simp [Buffer.ensureWritableBytes, short, result, room, pure, Except.pure]
  · refine ⟨b, ?_, sound.refl_becomes, by omega⟩
    have room : len ≤ b.writableBytes := by omega
    simp [Buffer.ensureWritableBytes, short, room, pure, Except.pure]

/-- Bytes copied to the free space and declared written extend the content. -/
theorem extended (sound : b.Sound) {data : List Byte}
    (fits : data.length ≤ b.writableBytes) :
    b.Becomes (b.extended data) (b.content ++ data) := by
  have ordered := sound.reader_le_writer
  have inside : b.writerIndex + data.length ≤ b.buffer.length := by
    have bound := sound.writer_le_size
    simp only [writableBytes] at fits
    omega
  have size := length_overwrite inside
  constructor
  · constructor
    · simp only [Buffer.extended, writeAtEnd]
      omega
    · simpa only [Buffer.extended, writeAtEnd, beginWrite, size] using inside
    · simpa only [Buffer.extended, writeAtEnd, beginWrite, size] using
        sound.cheap_le_size
  · exact window_overwrite_end ordered inside
  · exact Nat.min_le_right _ _

theorem hasWritten_writeAtEnd (sound : b.Sound) {data : List Byte}
    (fits : data.length ≤ b.writableBytes) :
    (b.writeAtEnd data).hasWritten data.length = .ok (b.extended data) := by
  have inside : b.writerIndex + data.length ≤ b.buffer.length := by
    have bound := sound.writer_le_size
    simp only [writableBytes] at fits
    omega
  have room : data.length ≤ (b.writeAtEnd data).writableBytes := by
    simpa only [writableBytes, writeAtEnd, beginWrite,
      length_overwrite inside] using fits
  simp only [hasWritten, assertThat_bind, if_pos room]
  rfl

theorem append (sound : b.Sound) (data : List Byte) :
    ∃ after, b.append data = .ok after ∧
      b.Becomes after (b.content ++ data) := by
  obtain ⟨ensured, result, first, room⟩ :=
    sound.ensureWritableBytes data.length
  have second := first.sound.extended room
  rw [first.content_eq] at second
  refine ⟨ensured.extended data, ?_, first.trans second⟩
  rw [Buffer.append, result, ok_bind, first.sound.hasWritten_writeAtEnd room]

theorem readFd (sound : b.Sound) (data : List Byte) :
    ∃ after, b.readFd (.ok data) = .ok after ∧
      b.Becomes after (b.content ++ data) := by
  by_cases fits : data.length ≤ b.writableBytes
  · have whole : data.take b.writableBytes = data :=
      List.take_of_length_le fits
    refine ⟨b.extended data, ?_, sound.extended fits⟩
    simp only [Buffer.readFd, if_pos fits, whole]
    rfl
  · have full : (data.take b.writableBytes).length = b.writableBytes := by
      simp only [List.length_take]
      omega
    have atEnd : b.writerIndex + b.writableBytes = b.buffer.length := by
      have bound := sound.writer_le_size
      simp only [writableBytes]
      omega
    have first := sound.extended (Nat.le_of_eq full)
    obtain ⟨after, appended, second⟩ :=
      first.sound.append (data.drop b.writableBytes)
    rw [first.content_eq, List.append_assoc, List.take_append_drop] at second
    refine ⟨after, ?_, first.trans second⟩
    rw [Buffer.extended, full, atEnd] at appended
    simp only [Buffer.readFd, if_neg fits, appended]

theorem readFd_error (sound : b.Sound) (errno : Errno) :
    ∃ after, b.readFd (.error errno) = .ok after ∧
      b.Becomes after b.content :=
  ⟨b, rfl, sound.refl_becomes⟩

end Sound

end Buffer

end Muduo
