import Muduo.Base.BufferRuns
import Muduo.Library.BigEndian

/-!
# Integers in network order

A signed integer of the source is its word of bits.  `htobe` and `betoh` swap the
bytes of a word on a little-endian host and do nothing on a big-endian one.
-/

namespace Muduo

open Library Library.BigEndian

/-- The byte order of the machine that the code runs on. -/
inductive HostOrder where
  | little
  | big
  deriving DecidableEq, Repr

namespace HostOrder

variable {count : Nat}

/-- The bytes of a variable, in the order of their addresses. -/
def store (host : HostOrder) (word : BitVec (8 * count)) : List Byte :=
  match host with
  | little => (ofWord word).reverse
  | big => ofWord word

/-- The value of a variable with the given bytes. -/
def load (host : HostOrder) (count : Nat) (bytes : List Byte) :
    BitVec (8 * count) :=
  match host with
  | little => toWord count bytes.reverse
  | big => toWord count bytes

/-- `htobe16`, `htobe32` and `htobe64` -/
def htobe (host : HostOrder) (word : BitVec (8 * count)) :
    BitVec (8 * count) :=
  match host with
  | little => toWord count (ofWord word).reverse
  | big => word

/-- `be16toh`, `be32toh` and `be64toh` -/
def betoh (host : HostOrder) (word : BitVec (8 * count)) :
    BitVec (8 * count) :=
  match host with
  | little => toWord count (ofWord word).reverse
  | big => word

theorem store_htobe (host : HostOrder) (word : BitVec (8 * count)) :
    host.store (host.htobe word) = ofWord word := by
  cases host with
  | big => rfl
  | little =>
      have size : (ofWord word).reverse.length = count := by simp
      simp only [store, htobe, ofWord_toWord size, List.reverse_reverse]

theorem betoh_load (host : HostOrder) {bytes : List Byte}
    (size : bytes.length = count) :
    host.betoh (host.load count bytes) = toWord count bytes := by
  cases host with
  | big => rfl
  | little =>
      have reversed : bytes.reverse.length = count := by simpa using size
      simp only [betoh, load, ofWord_toWord reversed, List.reverse_reverse]

end HostOrder

namespace Buffer

section Family

/-- `appendIntN`, for an integer of `count` bytes. -/
def appendInt (host : HostOrder) (count : Nat) (b : Buffer)
    (x : BitVec (8 * count)) : Checked Buffer :=
  b.append (host.store (host.htobe x))

/-- `peekIntN`, which copies the bytes at `peek()` into a variable. -/
def peekInt (host : HostOrder) (count : Nat) (fault : Fault) (b : Buffer) :
    Checked (BitVec (8 * count)) := do
  assertThat (count ≤ b.readableBytes) fault
  let be := host.load count (b.range b.peek (b.peek + count))
  return host.betoh be

/-- `prependIntN` -/
def prependInt (host : HostOrder) (count : Nat) (b : Buffer)
    (x : BitVec (8 * count)) : Checked Buffer :=
  b.prepend (host.store (host.htobe x))

end Family

def appendInt64 (host : HostOrder) (b : Buffer) (x : BitVec 64) :
    Checked Buffer := b.appendInt host 8 x

def appendInt32 (host : HostOrder) (b : Buffer) (x : BitVec 32) :
    Checked Buffer := b.appendInt host 4 x

def appendInt16 (host : HostOrder) (b : Buffer) (x : BitVec 16) :
    Checked Buffer := b.appendInt host 2 x

/-- The one byte is appended as it is. -/
def appendInt8 (b : Buffer) (x : BitVec 8) : Checked Buffer :=
  b.append [UInt8.ofBitVec x]

def retrieveInt64 (b : Buffer) : Checked Buffer := b.retrieve 8

def retrieveInt32 (b : Buffer) : Checked Buffer := b.retrieve 4

def retrieveInt16 (b : Buffer) : Checked Buffer := b.retrieve 2

def retrieveInt8 (b : Buffer) : Checked Buffer := b.retrieve 1

def peekInt64 (host : HostOrder) (b : Buffer) : Checked (BitVec 64) :=
  b.peekInt host 8 .peekInt64

def peekInt32 (host : HostOrder) (b : Buffer) : Checked (BitVec 32) :=
  b.peekInt host 4 .peekInt32

def peekInt16 (host : HostOrder) (b : Buffer) : Checked (BitVec 16) :=
  b.peekInt host 2 .peekInt16

/-- `*peek()` -/
def peekInt8 (b : Buffer) : Checked (BitVec 8) := do
  assertThat (1 ≤ b.readableBytes) .peekInt8
  return (b.buffer.getD b.peek 0).toBitVec

def readInt64 (host : HostOrder) (b : Buffer) :
    Checked (BitVec 64 × Buffer) := do
  let result ← b.peekInt64 host
  let rest ← b.retrieveInt64
  return (result, rest)

def readInt32 (host : HostOrder) (b : Buffer) :
    Checked (BitVec 32 × Buffer) := do
  let result ← b.peekInt32 host
  let rest ← b.retrieveInt32
  return (result, rest)

def readInt16 (host : HostOrder) (b : Buffer) :
    Checked (BitVec 16 × Buffer) := do
  let result ← b.peekInt16 host
  let rest ← b.retrieveInt16
  return (result, rest)

def readInt8 (b : Buffer) : Checked (BitVec 8 × Buffer) := do
  let result ← b.peekInt8
  let rest ← b.retrieveInt8
  return (result, rest)

def prependInt64 (host : HostOrder) (b : Buffer) (x : BitVec 64) :
    Checked Buffer := b.prependInt host 8 x

def prependInt32 (host : HostOrder) (b : Buffer) (x : BitVec 32) :
    Checked Buffer := b.prependInt host 4 x

def prependInt16 (host : HostOrder) (b : Buffer) (x : BitVec 16) :
    Checked Buffer := b.prependInt host 2 x

def prependInt8 (b : Buffer) (x : BitVec 8) : Checked Buffer :=
  b.prepend [UInt8.ofBitVec x]

namespace Sound

variable {b : Buffer} {count : Nat} {host : HostOrder}

theorem appendInt (sound : b.Sound) (x : BitVec (8 * count)) :
    ∃ after, b.appendInt host count x = .ok after ∧
      b.Becomes after (b.content ++ ofWord x) := by
  rw [Buffer.appendInt, host.store_htobe]
  exact sound.append (ofWord x)

theorem prependInt (sound : b.Sound) (x : BitVec (8 * count))
    (fits : count ≤ b.prependableBytes) :
    ∃ after, b.prependInt host count x = .ok after ∧ after.Sound ∧
      after.content = ofWord x ++ b.content := by
  rw [Buffer.prependInt, host.store_htobe]
  apply sound.prepend
  rw [length_ofWord]
  exact fits

theorem le_readableBytes (sound : b.Sound) {first rest : List Byte}
    (content : b.content = first ++ rest) (size : first.length = count) :
    count ≤ b.readableBytes := by
  rw [← sound.length_content, content, List.length_append, size]
  exact Nat.le_add_right _ _

theorem range_peek (sound : b.Sound) {first rest : List Byte}
    (content : b.content = first ++ rest) (size : first.length = count) :
    b.range b.peek (b.peek + count) = first := by
  have ordered := sound.reader_le_writer
  have fits := sound.le_readableBytes content size
  have taken : b.range b.peek (b.peek + count) = b.content.take count := by
    simp only [readableBytes] at fits
    exact (take_window b.buffer (by simp only [peek, beginWrite]; omega)).symm
  rw [taken, content, ← size, List.take_left']
  rfl

theorem peekInt (sound : b.Sound) {x : BitVec (8 * count)} {rest : List Byte}
    {fault : Fault} (content : b.content = ofWord x ++ rest) :
    b.peekInt host count fault = .ok x := by
  have size := length_ofWord x
  have fits := sound.le_readableBytes content size
  have loaded : host.betoh (host.load count (ofWord x)) = x := by
    rw [host.betoh_load size, toWord_ofWord]
  rw [Buffer.peekInt, assertThat_bind, if_pos fits,
    sound.range_peek content size]
  exact congrArg Except.ok loaded

theorem peekInt8 (sound : b.Sound) {x : BitVec 8} {rest : List Byte}
    (content : b.content = [UInt8.ofBitVec x] ++ rest) :
    b.peekInt8 = .ok x := by
  have fits : 1 ≤ b.readableBytes := sound.le_readableBytes content rfl
  have byte : b.buffer.getD b.peek 0 = UInt8.ofBitVec x := by
    apply getD_of_window
    exact sound.range_peek content rfl
  rw [Buffer.peekInt8, assertThat_bind, if_pos fits, byte]
  rfl

theorem retrieve_front (sound : b.Sound) {first rest : List Byte}
    (content : b.content = first ++ rest) (size : first.length = count) :
    ∃ after, b.retrieve count = .ok after ∧ b.Becomes after rest := by
  obtain ⟨after, result, becomes⟩ :=
    sound.retrieve (sound.le_readableBytes content size)
  rw [content, ← size, List.drop_left'] at becomes
  · exact ⟨after, result, becomes⟩
  · rfl

end Sound

end Buffer

/-- An integer and the width that it is appended with. -/
inductive NetworkInt where
  | int64 (x : BitVec 64)
  | int32 (x : BitVec 32)
  | int16 (x : BitVec 16)
  | int8 (x : BitVec 8)
  deriving DecidableEq, Repr

inductive IntWidth where
  | int64
  | int32
  | int16
  | int8
  deriving DecidableEq, Repr

namespace NetworkInt

def width : NetworkInt → IntWidth
  | int64 _ => .int64
  | int32 _ => .int32
  | int16 _ => .int16
  | int8 _ => .int8

def count : NetworkInt → Nat
  | int64 _ => 8
  | int32 _ => 4
  | int16 _ => 2
  | int8 _ => 1

def value : NetworkInt → Int
  | int64 x => x.toInt
  | int32 x => x.toInt
  | int16 x => x.toInt
  | int8 x => x.toInt

/-- The big-endian two's complement of the value. -/
def encoding (n : NetworkInt) : List Byte :=
  encode n.count (n.value % 256 ^ n.count).toNat

def append (host : HostOrder) (b : Buffer) : NetworkInt → Checked Buffer
  | int64 x => b.appendInt64 host x
  | int32 x => b.appendInt32 host x
  | int16 x => b.appendInt16 host x
  | int8 x => b.appendInt8 x

def prepend (host : HostOrder) (b : Buffer) : NetworkInt → Checked Buffer
  | int64 x => b.prependInt64 host x
  | int32 x => b.prependInt32 host x
  | int16 x => b.prependInt16 host x
  | int8 x => b.prependInt8 x

def read (host : HostOrder) (b : Buffer) :
    IntWidth → Checked (NetworkInt × Buffer)
  | .int64 => do
      let (x, rest) ← b.readInt64 host
      return (int64 x, rest)
  | .int32 => do
      let (x, rest) ← b.readInt32 host
      return (int32 x, rest)
  | .int16 => do
      let (x, rest) ← b.readInt16 host
      return (int16 x, rest)
  | .int8 => do
      let (x, rest) ← b.readInt8
      return (int8 x, rest)

def appendAll (host : HostOrder) (b : Buffer) :
    List NetworkInt → Checked Buffer
  | [] => .ok b
  | n :: values => do
      let next ← n.append host b
      appendAll host next values

def readAll (host : HostOrder) (b : Buffer) :
    List IntWidth → Checked (List NetworkInt × Buffer)
  | [] => .ok ([], b)
  | width :: widths => do
      let (n, next) ← read host b width
      let (values, last) ← readAll host next widths
      return (n :: values, last)

/-- The bits of the integer. -/
def word : (n : NetworkInt) → BitVec (8 * n.count)
  | int64 x => x
  | int32 x => x
  | int16 x => x
  | int8 x => x

theorem ofWord_int8 (x : BitVec 8) :
    ofWord (int8 x).word = [UInt8.ofBitVec x] := by
  have encoded : encode 1 x.toNat = [UInt8.ofBitVec x] := by
    simp only [encode, pow_zero, Nat.div_one]
    congr 1
    apply UInt8.toNat_inj.mp
    simp
  exact encoded

theorem encoding_eq (n : NetworkInt) : n.encoding = ofWord n.word := by
  cases n with
  | int64 x => exact (ofWord_eq_encode_toInt (word (int64 x))).symm
  | int32 x => exact (ofWord_eq_encode_toInt (word (int32 x))).symm
  | int16 x => exact (ofWord_eq_encode_toInt (word (int16 x))).symm
  | int8 x => exact (ofWord_eq_encode_toInt (word (int8 x))).symm

@[simp] theorem length_encoding (n : NetworkInt) :
    n.encoding.length = n.count := length_encode _ _

/-- All four functions append like one of their family. -/
theorem append_eq (host : HostOrder) (b : Buffer) (n : NetworkInt) :
    n.append host b = b.appendInt host n.count n.word := by
  cases n with
  | int64 x => rfl
  | int32 x => rfl
  | int16 x => rfl
  | int8 x =>
      rw [Buffer.appendInt, host.store_htobe, ofWord_int8]
      rfl

theorem prepend_eq (host : HostOrder) (b : Buffer) (n : NetworkInt) :
    n.prepend host b = b.prependInt host n.count n.word := by
  cases n with
  | int64 x => rfl
  | int32 x => rfl
  | int16 x => rfl
  | int8 x =>
      rw [Buffer.prependInt, host.store_htobe, ofWord_int8]
      rfl

variable {host : HostOrder} {b : Buffer}

variable (host) in
theorem append_spec (sound : b.Sound) (n : NetworkInt) :
    ∃ after, n.append host b = .ok after ∧
      b.Becomes after (b.content ++ n.encoding) := by
  rw [append_eq, encoding_eq]
  exact sound.appendInt n.word

theorem prepend_spec (sound : b.Sound) (n : NetworkInt)
    (fits : n.count ≤ b.prependableBytes) :
    ∃ after, n.prepend host b = .ok after ∧ after.Sound ∧
      after.content = n.encoding ++ b.content := by
  rw [prepend_eq, encoding_eq]
  exact sound.prependInt n.word fits

variable (host) in
theorem read_spec (sound : b.Sound) (n : NetworkInt) {rest : List Byte}
    (content : b.content = n.encoding ++ rest) :
    ∃ after, read host b n.width = .ok (n, after) ∧ b.Becomes after rest := by
  obtain ⟨after, retrieved, becomes⟩ :=
    sound.retrieve_front content (length_encoding n)
  refine ⟨after, ?_, becomes⟩
  rw [encoding_eq] at content
  cases n with
  | int64 x =>
      have peeked : b.peekInt64 host = .ok x := sound.peekInt content
      have taken : b.retrieveInt64 = .ok after := retrieved
      simp [read, width, Buffer.readInt64, peeked, taken, pure, Except.pure]
  | int32 x =>
      have peeked : b.peekInt32 host = .ok x := sound.peekInt content
      have taken : b.retrieveInt32 = .ok after := retrieved
      simp [read, width, Buffer.readInt32, peeked, taken, pure, Except.pure]
  | int16 x =>
      have peeked : b.peekInt16 host = .ok x := sound.peekInt content
      have taken : b.retrieveInt16 = .ok after := retrieved
      simp [read, width, Buffer.readInt16, peeked, taken, pure, Except.pure]
  | int8 x =>
      rw [ofWord_int8] at content
      have peeked : b.peekInt8 = .ok x := sound.peekInt8 content
      have taken : b.retrieveInt8 = .ok after := retrieved
      simp [read, width, Buffer.readInt8, peeked, taken, pure, Except.pure]

theorem appendAll_spec (sound : b.Sound) (values : List NetworkInt) :
    ∃ after, appendAll host b values = .ok after ∧
      b.Becomes after (b.content ++ values.flatMap encoding) := by
  induction values generalizing b with
  | nil =>
      refine ⟨b, rfl, ?_⟩
      rw [List.flatMap_nil, List.append_nil]
      exact sound.refl_becomes
  | cons n values induction =>
      obtain ⟨next, appended, first⟩ := append_spec host sound n
      obtain ⟨after, rest, second⟩ := induction first.sound
      rw [first.content_eq, List.append_assoc, ← List.flatMap_cons] at second
      refine ⟨after, ?_, first.trans second⟩
      rw [appendAll, appended, ok_bind, rest]

theorem readAll_spec (sound : b.Sound) (values : List NetworkInt)
    (content : b.content = values.flatMap encoding) :
    ∃ after, readAll host b (values.map width) = .ok (values, after) ∧
      b.Becomes after [] := by
  induction values generalizing b with
  | nil =>
      refine ⟨b, rfl, ?_⟩
      have empty : b.content = [] := content
      rw [← empty]
      exact sound.refl_becomes
  | cons n values induction =>
      obtain ⟨next, taken, first⟩ := read_spec host sound n content
      obtain ⟨after, rest, second⟩ := induction first.sound first.content_eq
      refine ⟨after, ?_, first.trans second⟩
      simp [readAll, taken, rest, pure, Except.pure]

section Reachable

variable {ι : Type} [DecidableEq ι]

/-- Integers come back from a reachable buffer as they were put into it, behind
its content or in front of it. -/
theorem ints_round_trip (host : HostOrder) {initialSize : ι → Nat}
    {ops : List (BuffersOp ι)} {buffers : ι → Buffer}
    (run : (buffersMachine ι).Run (freshBuffers initialSize) ops buffers)
    (index : ι) :
    (∀ values, ∃ filled rest final,
      appendAll host (buffers index) values = .ok filled ∧
      filled.content =
        (buffers index).content ++ values.flatMap encoding ∧
      filled.retrieve (buffers index).content.length = .ok rest ∧
      readAll host rest (values.map width) = .ok (values, final) ∧
      final.readableBytes = 0) ∧
    (∀ n : NetworkInt, n.count ≤ (buffers index).prependableBytes →
      ∃ extended after,
        n.prepend host (buffers index) = .ok extended ∧
        extended.content = n.encoding ++ (buffers index).content ∧
        read host extended n.width = .ok (n, after) ∧
        after.content = (buffers index).content) := by
  have sound := ((buffers_refine_contents initialSize run).1 index).1
  constructor
  · intro values
    obtain ⟨filled, appended, filling⟩ := appendAll_spec sound values
    obtain ⟨rest, retrieved, taking⟩ :=
      filling.sound.retrieve_front filling.content_eq rfl
    obtain ⟨final, taken, reading⟩ :=
      readAll_spec taking.sound values taking.content_eq
    refine ⟨filled, rest, final, appended, filling.content_eq, retrieved,
      taken, ?_⟩
    rw [← reading.sound.length_content, reading.content_eq, List.length_nil]
  · intro n fits
    obtain ⟨extended, prepended, extendedSound, content⟩ :=
      prepend_spec sound n fits
    obtain ⟨after, taken, reading⟩ := read_spec host extendedSound n content
    exact ⟨extended, after, prepended, content, taken, reading.content_eq⟩

/-- Three extreme values of different widths behind two bytes in a buffer without
initial space, and one in front of them. -/
theorem ints_round_trip_extremes :
    ∃ buffers, (buffersMachine Unit).Run (freshBuffers fun _ => 0)
        [.on () (.append [1, 2])] buffers ∧
      (∃ filled rest final,
        appendAll .little (buffers ())
          [int64 (BitVec.intMin 64), int8 (-1), int16 300] = .ok filled ∧
        filled.retrieve 2 = .ok rest ∧
        readAll .little rest [.int64, .int8, .int16] =
          .ok ([int64 (BitVec.intMin 64), int8 (-1), int16 300], final)) ∧
      ∃ extended after,
        (int32 (-5)).prepend .little (buffers ()) = .ok extended ∧
        read .little extended .int32 = .ok (int32 (-5), after) := by
  have run : (buffersMachine Unit).Run (freshBuffers fun _ => 0)
      [.on () (.append [1, 2])]
      (Function.update (freshBuffers fun _ => 0) ()
        ⟨[0, 0, 0, 0, 0, 0, 0, 0, 1, 2], 8, 10⟩) := .head .refl trivial rfl
  obtain ⟨behind, front⟩ := ints_round_trip .little run ()
  obtain ⟨filled, rest, final, appended, _, retrieved, taken, _⟩ :=
    behind [int64 (BitVec.intMin 64), int8 (-1), int16 300]
  have room : 4 ≤ 8 := by omega
  obtain ⟨extended, after, prepended, _, read, _⟩ := front (int32 (-5)) room
  exact ⟨_, run, ⟨filled, rest, final, appended, retrieved, taken⟩,
    extended, after, prepended, read⟩

end Reachable

end NetworkInt

end Muduo
