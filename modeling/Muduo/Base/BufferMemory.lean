import Muduo.Base.BufferRuns

/-!
# The storage of buffers

A buffer is enlarged only if moving its content to the front would not make
enough room.  What it is enlarged to depends on the content of the moment and on
the bytes asked for, and not on how many bytes have gone through it.
-/

namespace Muduo

open Library

namespace Buffer

/-- Making room for `len` bytes leaves less storage than this, if it makes any. -/
def demand (b : Buffer) (len : Nat) : Nat :=
  if b.writableBytes < len then b.readableBytes + 2 * len + kCheapPrepend
  else 0

/-- The storage has stayed, or the new one is below a limit. -/
def Grown (b after : Buffer) (limit : Nat) : Prop :=
  after.buffer.length = b.buffer.length ∨ after.buffer.length < limit

variable {b after : Buffer}

theorem length_makeSpace (sound : b.Sound) {len : Nat}
    (short : b.writableBytes < len) (made : b.makeSpace len = .ok after) :
    b.Grown after (b.demand len) := by
  have ordered := sound.reader_le_writer
  have bound := sound.writer_le_size
  rw [demand, if_pos short]
  rw [makeSpace] at made
  split at made
  next enlarged =>
    obtain rfl := Except.ok.inj made
    simp only [writableBytes, prependableBytes] at short enlarged
    have longer : b.buffer.length ≤ b.writerIndex + len := by omega
    have size : (resize b.buffer (b.writerIndex + len) 0).length =
      b.writerIndex + len := length_resize longer
    right
    rw [size, readableBytes]
    omega
  next enough =>
    obtain ⟨_, _, rest⟩ := bind_eq_ok made
    obtain ⟨_, _, last⟩ := bind_eq_ok rest
    obtain rfl := Except.ok.inj last
    left
    apply length_overwrite
    have moved : (b.range b.readerIndex b.writerIndex).length =
      b.readableBytes := sound.length_content
    simp only [writableBytes, prependableBytes] at short enough
    rw [moved, readableBytes]
    omega

theorem length_ensureWritableBytes (sound : b.Sound) {len : Nat}
    (ensured : b.ensureWritableBytes len = .ok after) :
    b.Grown after (b.demand len) := by
  rw [ensureWritableBytes] at ensured
  split at ensured
  next short =>
    obtain ⟨made, making, rest⟩ := bind_eq_ok ensured
    obtain ⟨_, _, last⟩ := bind_eq_ok rest
    obtain rfl := Except.ok.inj last
    exact length_makeSpace sound short making
  next room =>
    obtain ⟨_, same, rest⟩ := bind_eq_ok ensured
    obtain ⟨_, _, last⟩ := bind_eq_ok rest
    obtain rfl := Except.ok.inj last
    obtain rfl := Except.ok.inj same
    exact .inl rfl

theorem length_hasWritten {data : List Byte}
    (written : (b.writeAtEnd data).hasWritten data.length = .ok after)
    (room : b.writerIndex + data.length ≤ b.buffer.length) :
    after.buffer.length = b.buffer.length := by
  obtain ⟨_, _, last⟩ := bind_eq_ok written
  obtain rfl := Except.ok.inj last
  exact length_overwrite room

theorem length_writeReserved (sound : b.Sound) {len : Nat}
    {ensured : Buffer} (ensures : b.ensureWritableBytes len = .ok ensured)
    {data : List Byte} (fits : data.length ≤ ensured.writableBytes)
    (written : (ensured.writeAtEnd data).hasWritten data.length = .ok after) :
    b.Grown after (b.demand len) := by
  obtain ⟨other, result, becomes, _⟩ := sound.ensureWritableBytes len
  obtain rfl := Except.ok.inj (result.symm.trans ensures)
  have bound := becomes.sound.writer_le_size
  have same : after.buffer.length = other.buffer.length := by
    apply length_hasWritten written
    simp only [writableBytes] at fits
    omega
  rw [Grown, same]
  exact length_ensureWritableBytes sound ensures

theorem length_append (sound : b.Sound) {data : List Byte}
    (appended : b.append data = .ok after) :
    b.Grown after (b.demand data.length) := by
  obtain ⟨ensured, ensures, written⟩ := bind_eq_ok appended
  obtain ⟨other, result, _, room⟩ := sound.ensureWritableBytes data.length
  obtain rfl := Except.ok.inj (result.symm.trans ensures)
  exact length_writeReserved sound ensures room written

theorem buffer_retrieve {len : Nat} (retrieved : b.retrieve len = .ok after) :
    after.buffer = b.buffer := by
  obtain ⟨_, _, rest⟩ := bind_eq_ok retrieved
  split at rest
  next partly =>
    obtain rfl := Except.ok.inj rest
    rfl
  next whole =>
    obtain rfl := Except.ok.inj rest
    rfl

theorem buffer_retrieveUntil {last : Nat}
    (retrieved : b.retrieveUntil last = .ok after) :
    after.buffer = b.buffer := by
  obtain ⟨_, _, rest⟩ := bind_eq_ok retrieved
  obtain ⟨_, _, retrieves⟩ := bind_eq_ok rest
  exact buffer_retrieve retrieves

/-- What a read may take: the free space is full before the rest is appended. -/
def readDemand (b : Buffer) (data : List Byte) : Nat :=
  if data.length ≤ b.writableBytes then 0
  else b.readableBytes + b.writableBytes +
    2 * (data.length - b.writableBytes) + kCheapPrepend

theorem length_readFd (sound : b.Sound) {data : List Byte}
    (filled : b.readFd (.ok data) = .ok after) :
    b.Grown after (b.readDemand data) := by
  have ordered := sound.reader_le_writer
  have bound := sound.writer_le_size
  rw [readDemand]
  simp only [readFd] at filled
  split at filled
  next fits =>
    obtain rfl := Except.ok.inj filled
    left
    rw [List.take_of_length_le fits]
    apply length_overwrite
    simp only [writableBytes] at fits
    rw [beginWrite]
    omega
  next beyond =>
    rw [if_neg beyond]
    have full : (data.take b.writableBytes).length = b.writableBytes := by
      rw [List.length_take]
      omega
    have whole : b.writerIndex + b.writableBytes = b.buffer.length := by
      rw [writableBytes]
      omega
    have stored : (overwrite b.buffer b.beginWrite
        (data.take b.writableBytes)).length = b.buffer.length := by
      apply length_overwrite
      rw [full, beginWrite]
      exact Nat.le_of_eq whole
    have first := (sound.extended (Nat.le_of_eq full)).sound
    rw [extended, full, whole] at first
    rcases length_append first filled with same | below
    · exact .inl (same.trans stored)
    · right
      refine Nat.lt_of_lt_of_le below ?_
      rw [demand]
      split
      next short =>
        simp only [readableBytes, writableBytes, writeAtEnd,
          List.length_drop]
        omega
      next room => exact Nat.zero_le _

theorem readDemand_le {data : List Byte} (offered : data.length ≤ b.offered)
    {unread : Nat} (backlog : b.readableBytes ≤ unread) :
    b.readDemand data ≤ unread + 3 * kExtraBufSize + kCheapPrepend := by
  rw [readDemand]
  split
  next fits => exact Nat.zero_le _
  next beyond =>
    rw [Buffer.offered] at offered
    split at offered
    next little => omega
    next much => exact (beyond offered).elim

end Buffer

namespace BufferOp

/-- The storage that an operation may leave if it takes more than there is. -/
def demand (b : Buffer) : BufferOp → Nat
  | append data => b.demand data.length
  | ensureWritableBytes len => b.demand len
  | writeReserved len _ => b.demand len
  | readFd (.ok data) => b.readDemand data
  | readFd (.error _) => 0
  | prepend _ | retrieve _ | retrieveUntil _ | retrieveAll
  | retrieveAsString _ | unwrite _ => 0

theorem run_grown {b after : Buffer} (sound : b.Sound) {op : BufferOp}
    (allowed : op.Precondition b) (result : op.run b = .ok after) :
    b.Grown after (op.demand b) := by
  cases op with
  | append data => exact Buffer.length_append sound result
  | prepend data =>
      obtain ⟨_, _, last⟩ := bind_eq_ok result
      obtain rfl := Except.ok.inj last
      left
      apply length_overwrite
      have ordered := sound.reader_le_writer
      have bound := sound.writer_le_size
      have fits : data.length ≤ b.prependableBytes := allowed
      rw [Buffer.prependableBytes] at fits
      omega
  | retrieve len =>
      exact .inl (congrArg _ (Buffer.buffer_retrieve result))
  | retrieveUntil len =>
      exact .inl (congrArg _ (Buffer.buffer_retrieveUntil result))
  | retrieveAll =>
      obtain rfl := Except.ok.inj result
      exact .inl rfl
  | retrieveAsString len =>
      obtain ⟨taken, takes, last⟩ := bind_eq_ok result
      obtain ⟨_, _, rest⟩ := bind_eq_ok takes
      obtain ⟨_, retrieves, both⟩ := bind_eq_ok rest
      obtain rfl := Except.ok.inj both
      obtain rfl := Except.ok.inj last
      exact .inl (congrArg _ (Buffer.buffer_retrieve retrieves))
  | unwrite len =>
      obtain ⟨_, _, last⟩ := bind_eq_ok result
      obtain rfl := Except.ok.inj last
      exact .inl rfl
  | ensureWritableBytes len =>
      exact Buffer.length_ensureWritableBytes sound result
  | writeReserved len data =>
      obtain ⟨ensured, ensures, written⟩ := bind_eq_ok result
      exact Buffer.length_writeReserved sound ensures
        (allowed ensured ensures) written
  | readFd outcome =>
      cases outcome with
      | ok data => exact Buffer.length_readFd sound result
      | error errno =>
          obtain rfl := Except.ok.inj result
          exact .inl rfl

end BufferOp

namespace BuffersOp

variable {ι : Type} [DecidableEq ι] {limit : Nat}

/-- No buffer is asked for more than a limit. -/
def Within (limit : Nat) (buffers : ι → Buffer) : BuffersOp ι → Prop
  | on target op => op.demand (buffers target) ≤ limit
  | swap _ _ => True

/-- Every buffer is sound and takes less than a limit. -/
def Below (limit : Nat) (buffers : ι → Buffer) : Prop :=
  ∀ index, (buffers index).Sound ∧ (buffers index).buffer.length < limit

theorem Below.step {buffers next : ι → Buffer} (below : Below limit buffers)
    {op : BuffersOp ι} (allowed : op.Precondition buffers)
    (within : op.Within limit buffers) (result : op.run buffers = .ok next) :
    Below limit next := by
  obtain ⟨other, same, sound, _⟩ :=
    run_spec (fun index => (below index).1) allowed
  obtain rfl := Except.ok.inj (same.symm.trans result)
  intro index
  refine ⟨sound index, ?_⟩
  cases op with
  | on target op =>
      obtain ⟨after, runs, last⟩ := bind_eq_ok result
      obtain rfl := Except.ok.inj last
      by_cases here : index = target
      · subst here
        rw [Function.update_self]
        rcases BufferOp.run_grown (below index).1 allowed runs with
          kept | enlarged
        · rw [kept]
          exact (below index).2
        · exact Nat.lt_of_lt_of_le enlarged within
      · rw [Function.update_of_ne here]
        exact (below index).2
  | swap first second =>
      obtain rfl := Except.ok.inj result
      by_cases last : index = second
      · subst last
        rw [Function.update_self]
        exact (below first).2
      · rw [Function.update_of_ne last]
        by_cases here : index = first
        · subst here
          rw [Function.update_self]
          exact (below second).2
        · rw [Function.update_of_ne here]
          exact (below index).2

end BuffersOp

section Runs

variable {ι : Type} [DecidableEq ι] {initialSize : ι → Nat}
variable {ops : List (BuffersOp ι)} {buffers : ι → Buffer}

/-- Whatever the operations are and however many: while no operation that must
make room asks for more than the limit, counting the content of the moment and
the new bytes twice, no buffer takes as much storage as the limit. -/
theorem run_storage {limit : Nat}
    (initial : ∀ index, kCheapPrepend + initialSize index < limit)
    (runs : ((buffersMachine ι).restrict (fun buffers op =>
      op.Within limit buffers)).Run (freshBuffers initialSize) ops buffers) :
    ∀ index, (buffers index).buffer.length < limit := by
  have below : BuffersOp.Below limit buffers := by
    apply Machine.Run.restrict_invariant ?_ ?_ runs
    · intro index
      refine ⟨Buffer.new_sound _, ?_⟩
      have size : (freshBuffers initialSize index).buffer.length =
          kCheapPrepend + initialSize index := List.length_replicate
      rw [size]
      exact initial index
    · intro state op next below allowed within stepped
      exact below.step allowed within stepped
  intro index
  exact (below index).2

/-- The limit cannot be lowered: a buffer whose content has just been read up
to one byte is asked for as much again as it has. -/
theorem storage_near_limit :
    ∃ buffers, ((buffersMachine Bool).restrict (fun buffers op =>
        op.Within 17 buffers)).Run (freshBuffers fun _ => 4)
        [.on false (.append [1, 2, 3, 4]), .on false (.retrieve 3),
          .on false (.ensureWritableBytes 4)] buffers ∧
      (buffers false).buffer.length = 16 ∧
      ∀ index, (buffers index).buffer.length < 17 := by
  have run : ∃ buffers, ((buffersMachine Bool).restrict (fun buffers op =>
        op.Within 17 buffers)).Run (freshBuffers fun _ => 4)
      [.on false (.append [1, 2, 3, 4]), .on false (.retrieve 3),
        .on false (.ensureWritableBytes 4)] buffers ∧
      (buffers false).buffer.length = 16 := by
    refine ⟨_, .head (.head (.head .refl ⟨trivial, ?_⟩ rfl)
      ⟨?_, ?_⟩ rfl) ⟨trivial, ?_⟩ rfl, rfl⟩ <;>
      exact Nat.le_of_ble_eq_true rfl
  obtain ⟨buffers, runs, size⟩ := run
  refine ⟨buffers, runs, size, run_storage ?_ runs⟩
  intro index
  decide

end Runs

end Muduo
