import Muduo.Base.BufferMemory
import Muduo.Http.ConnectionRuns

/-!
# The storage of an input buffer

A connection of the server may stay open for ever.  How much storage its input
takes depends on the bytes that wait for the rest of their line, and not on the
length of the stream.
-/

namespace Muduo

open Library

namespace HttpContext

variable {receiveTime : Timestamp}

/-- Parsing moves the indices of the buffer only. -/
theorem parseStep_buffer {loop next : ParseLoop}
    (stepped : parseStep receiveTime loop = .ok next) :
    next.buf.buffer = loop.buf.buffer := by
  rw [parseStep] at stepped
  split at stepped
  next line =>
    split at stepped
    next crlf found =>
      obtain ⟨⟨ok, request⟩, _, rest⟩ := bind_eq_ok stepped
      simp only at rest
      split at rest
      next accepted =>
        obtain ⟨buf, retrieved, last⟩ := bind_eq_ok rest
        obtain rfl := Except.ok.inj last
        exact Buffer.buffer_retrieveUntil retrieved
      next refused =>
        obtain rfl := Except.ok.inj rest
        rfl
    next none =>
      obtain rfl := Except.ok.inj stepped
      rfl
  next header =>
    split at stepped
    next crlf found =>
      obtain ⟨buf, retrieved, last⟩ := bind_eq_ok stepped
      obtain rfl := Except.ok.inj last
      exact Buffer.buffer_retrieveUntil retrieved
    next none =>
      obtain rfl := Except.ok.inj stepped
      rfl
  next body =>
    obtain rfl := Except.ok.inj stepped
    rfl
  next all =>
    obtain rfl := Except.ok.inj stepped
    rfl

theorem parseLoop_buffer {fuel : Nat} {loop final : ParseLoop}
    (looped : parseLoop receiveTime fuel loop = .ok final) :
    final.buf.buffer = loop.buf.buffer := by
  induction fuel generalizing loop with
  | zero =>
      rw [parseLoop] at looped
      split at looped
      next running => cases looped
      next stopped =>
        obtain rfl := Except.ok.inj looped
        rfl
  | succ fuel induction =>
      rw [parseLoop] at looped
      split at looped
      next running =>
        obtain ⟨next, stepped, rest⟩ := bind_eq_ok looped
        exact (induction rest).trans (parseStep_buffer stepped)
      next stopped =>
        obtain rfl := Except.ok.inj looped
        rfl

theorem parseRequest_buffer {context final : HttpContext} {buf rest : Buffer}
    {ok : Bool}
    (parsed : context.parseRequest buf receiveTime = .ok (ok, final, rest)) :
    rest.buffer = buf.buffer := by
  obtain ⟨loop, looped, last⟩ := bind_eq_ok parsed
  obtain ⟨_, same⟩ := Prod.mk.inj (Except.ok.inj last)
  obtain ⟨_, rfl⟩ := Prod.mk.inj same
  exact parseLoop_buffer looped

end HttpContext

namespace HttpServer

variable {owner : LinkOwner HttpContext} {httpCallback : HttpCallback}
variable {conn next : HttpConnection}

/-- The storage of the input buffer. -/
def inputStorage (conn : HttpConnection) : Nat :=
  conn.link.inputBuffer.buffer.length

theorem dispatchIf_storage (calm : owner.Calm) (steady : conn.link.Steady)
    {context : HttpContext}
    (dispatched : dispatchIf owner httpCallback conn context = .ok next) :
    inputStorage next = inputStorage conn := by
  rw [dispatchIf] at dispatched
  split at dispatched
  next got =>
    obtain ⟨answered, called, resets⟩ := bind_eq_ok dispatched
    have kept := (rcvRequest_kept calm steady called).1
    obtain rfl := Except.ok.inj resets
    exact congrArg (fun b => b.buffer.length) kept.inputBuffer_eq
  next waits =>
    obtain rfl := Except.ok.inj dispatched
    rfl

theorem rcvMessage_storage (calm : owner.Calm) (steady : conn.link.Steady)
    {receiveTime : Timestamp}
    (received : rcvMessage owner httpCallback conn receiveTime = .ok next) :
    inputStorage next = inputStorage conn := by
  rw [rcvMessage] at received
  split at received
  next none =>
    obtain rfl := Except.ok.inj received
    rfl
  next context here =>
    obtain ⟨⟨ok, final, rest⟩, parsed, refusing⟩ := bind_eq_ok received
    let link : LinkedSocket HttpContext :=
      { conn.link with inputBuffer := rest, context := some final }
    have waiting : link.Steady := steady.of_eq rfl rfl
    obtain ⟨answered, refused, kept⟩ := refuseUnless_kept calm waiting ok
    simp only at refusing
    rw [refused, ok_bind] at refusing
    calc
      inputStorage next = answered.inputBuffer.buffer.length :=
        dispatchIf_storage calm kept.steady refusing
      _ = rest.buffer.length :=
        congrArg (fun b => b.buffer.length) kept.inputBuffer_eq
      _ = inputStorage conn :=
        congrArg List.length (HttpContext.parseRequest_buffer parsed)

theorem Receiving.serving (receiving : Receiving conn) :
    ∃ context, Serving conn context := by
  rcases receiving with ⟨_, context, serving, _⟩ | ⟨_, _, _, serving, _⟩
  · exact ⟨context, serving⟩
  · exact ⟨_, serving⟩

/-- The kernel delivers no more than it was offered the room for, and few bytes
have been left over by the reads before. -/
def Reads (unread : Nat) (conn : HttpConnection) : ConnectionAction → Prop
  | .read chunk =>
      chunk.bytes.length ≤ conn.link.inputBuffer.offered ∧
        conn.link.inputBuffer.readableBytes ≤ unread
  | .writable => True

instance decidableReads (unread : Nat) (conn : HttpConnection) :
    (action : ConnectionAction) → Decidable (Reads unread conn action)
  | .read _ => @instDecidableAnd _ _ (Nat.decLe _ _) (Nat.decLe _ _)
  | .writable => instDecidableTrue

/-- A connection whose input takes no more than reads with few bytes left over
can lead to. -/
structure Compact (unread : Nat) (conn : HttpConnection) : Prop where
  receiving : Receiving conn
  below : inputStorage conn < unread + 3 * kExtraBufSize + kCheapPrepend

theorem newConnection_compact (unread : Nat) (fd : Int) (highWaterMark : Nat)
    (writes : List WriteResult) :
    Compact unread (newConnection fd highWaterMark writes) where
  receiving := .inl ⟨[], newConnection_alive fd highWaterMark writes⟩
  below := by
    have size : inputStorage (newConnection fd highWaterMark writes) =
        kCheapPrepend + kInitialSize := List.length_replicate
    rw [size, kInitialSize, kExtraBufSize]
    omega

theorem Compact.step (calm : owner.Calm) {unread : Nat}
    (compact : Compact unread conn) {action : ConnectionAction}
    (reads : Reads unread conn action)
    (stepped : connectionStep owner httpCallback conn action = .ok next) :
    Compact unread next := by
  refine ⟨compact.receiving.step calm stepped, ?_⟩
  obtain ⟨context, serving⟩ := compact.receiving.serving
  cases action with
  | read chunk =>
      obtain ⟨offered, backlog⟩ := reads
      obtain ⟨filled, read, received⟩ := bind_eq_ok stepped
      obtain ⟨other, result, becomes⟩ :=
        serving.input_sound.readFd chunk.bytes
      obtain rfl := Except.ok.inj (result.symm.trans read)
      have steady := (serving.grown becomes.sound).steady
      rw [rcvMessage_storage calm steady received]
      rcases Buffer.length_readFd serving.input_sound read with same | grown
      · exact Nat.lt_of_le_of_lt (Nat.le_of_eq same) compact.below
      · exact Nat.lt_of_lt_of_le grown (Buffer.readDemand_le offered backlog)
  | writable =>
      obtain ⟨other, result, kept⟩ := serving.steady.handleWrite_kept calm
      obtain ⟨after, written, last⟩ := bind_eq_ok stepped
      obtain rfl := Except.ok.inj last
      obtain rfl := Except.ok.inj (result.symm.trans written)
      have same : other.inputBuffer = conn.link.inputBuffer :=
        kept.inputBuffer_eq
      rw [inputStorage, same]
      exact compact.below

/-- In every run of a connection, however long the stream and however it is cut
into reads, the input buffer takes less than three times the extra buffer of
`readFd` besides the bytes that were ever left unread before a read. -/
theorem run_inputStorage (calm : owner.Calm) {fd : Int} {highWaterMark : Nat}
    {writes : List WriteResult} {unread : Nat}
    {actions : List ConnectionAction}
    (runs : ((connectionMachine owner httpCallback).restrict
      (Reads unread)).Run
        (newConnection fd highWaterMark writes) actions conn) :
    conn.link.inputBuffer.buffer.length <
      unread + 3 * kExtraBufSize + kCheapPrepend := by
  have compact : Compact unread conn := by
    apply Machine.Run.restrict_invariant ?_ ?_ runs
    · exact newConnection_compact unread fd highWaterMark writes
    · intro conn action next compact _ reads stepped
      exact compact.step calm reads stepped
  exact compact.below

/-- A request that comes in two reads: what is left in between is one byte. -/
theorem halfLine_inputStorage :
    ∃ conn, ((connectionMachine silentOwner defaultHttpCallback).restrict
        (Reads 1)).Run (newConnection 5 64 [.accepted 200])
        [.read ⟨ascii "GET /a HTTP/1.1\r\n\r", 1⟩,
          .read ⟨ascii "\n", 2⟩, .writable] conn ∧
      conn.dispatched.length = 1 ∧
      conn.link.inputBuffer.buffer.length <
        1 + 3 * kExtraBufSize + kCheapPrepend := by
  have found : (((connectionMachine silentOwner defaultHttpCallback).restrict
      (Reads 1)).execute (newConnection 5 64 [.accepted 200])
      [.read ⟨ascii "GET /a HTTP/1.1\r\n\r", 1⟩,
        .read ⟨ascii "\n", 2⟩, .writable]).any
      (fun conn => conn.dispatched.length = 1) = true := by
    decide +kernel
  obtain ⟨conn, runs, accepted⟩ := Machine.run_of_execute found
  exact ⟨conn, runs, of_decide_eq_true accepted,
    run_inputStorage silentOwner_quiet.calm runs⟩

end HttpServer

end Muduo
