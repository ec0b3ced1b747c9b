import Muduo.Http.ServerAsserts

/-!
# Runs of a connection

What the io loop does on a connection of the server until the link closes: reads
that deliver a chunk and write events, in any order.  Whatever they are, every
call of `parseRequest` finds a state in which its loop ends.
-/

namespace Muduo

open Library

namespace LinkedSocket

variable {Context : Type} {owner : LinkOwner Context}
variable {link : LinkedSocket Context}

theorem Steady.handleWrite_kept (calm : owner.Calm) (steady : link.Steady) :
    ∃ after, link.handleWrite owner = .ok after ∧ link.Kept after := by
  by_cases writing : link.isWriting = true
  · obtain ⟨written, emptied, result, partly, whole⟩ :=
      steady.writeQueued writing
    simp only [LinkedSocket.handleWrite, if_pos writing, result, ok_bind]
    cases emptied with
    | false => exact ⟨written, rfl, (partly rfl).kept⟩
    | true =>
        have drained := (whole rfl).kept
        have registered := updateInPoll_mod drained.steady.added
          drained.steady.reading
        have recorded := drained.steady.record_kept .writeComplete
        obtain ⟨reported, result, kept⟩ :=
          calm.writeComplete _ recorded.steady
        have soFar := (drained.trans recorded).trans kept
        simp only [if_true, registered, ok_bind, result]
        split
        · exact ⟨_, rfl, soFar.trans kept.steady.shutdownInLoop.kept⟩
        · exact ⟨_, rfl, soFar⟩
  · exact ⟨link, if_neg writing, steady.refl_kept⟩

end LinkedSocket

namespace HttpContext

/-- The states in which `parseRequest` looks for a line. -/
def ExpectsLine (context : HttpContext) : Prop :=
  context.state = .kExpectRequestLine ∨ context.state = .kExpectHeaders

theorem Ready.expectsLine {context : HttpContext} (ready : context.Ready) :
    context.ExpectsLine := by
  cases ready with
  | requestLine _ => exact .inl rfl
  | headers _ => exact .inr rfl

/-- A request that has a method ends the loop in its first turn, be it by the
assert of `setMethod`. -/
theorem parseLoop_set {request : HttpRequest}
    (known : request.method ≠ .kInvalid) {buf : Buffer} (sound : buf.Sound)
    (receiveTime : Timestamp) (fuel : Nat) :
    (∃ loop, parseLoop receiveTime (fuel + 1)
        ⟨true, true, ⟨.kExpectRequestLine, request⟩, buf⟩ = .ok loop ∧
      loop.hasMore = false) ∨
    parseLoop receiveTime (fuel + 1)
      ⟨true, true, ⟨.kExpectRequestLine, request⟩, buf⟩ =
      .error .setMethod := by
  cases cut : cutLine buf.content with
  | none =>
      have stepped : parseStep receiveTime
          ⟨true, true, ⟨.kExpectRequestLine, request⟩, buf⟩ =
          .ok ⟨true, false, ⟨.kExpectRequestLine, request⟩, buf⟩ := by
        simp [parseStep, sound.findCRLF_none cut, ParseLoop.stop]
      rw [parseLoop_step rfl stepped]
      exact .inl ⟨_, parseLoop_stopped rfl, rfl⟩
  | some pair =>
      obtain ⟨line, rest⟩ := pair
      by_cases spaced : space ∈ line
      · have stepped : parseStep receiveTime
            ⟨true, true, ⟨.kExpectRequestLine, request⟩, buf⟩ =
            .error .setMethod :=
          parseStep_failed sound cut
            (HttpRequest.processRequestLine_set known spaced)
        right
        simp only [parseLoop, stepped, if_true]
        rfl
      · obtain ⟨crlf, _, found, text, _, _⟩ := sound.findCRLF_some cut
        have stepped : parseStep receiveTime
            ⟨true, true, ⟨.kExpectRequestLine, request⟩, buf⟩ =
            .ok ⟨false, false, ⟨.kExpectRequestLine, request⟩, buf⟩ := by
          simp [parseStep, found, text, pure, Except.pure,
            HttpRequest.processRequestLine_noSpace spaced]
        rw [parseLoop_step rfl stepped]
        exact .inl ⟨_, parseLoop_stopped rfl, rfl⟩

/-- In a state that expects a line, the loop ends within one turn more than
there are bytes, if the assert of `setMethod` does not end it before. -/
theorem parseLoop_ends {context : HttpContext} (expects : context.ExpectsLine)
    {buf : Buffer} (sound : buf.Sound) (receiveTime : Timestamp) {fuel : Nat}
    (enough : buf.readableBytes < fuel) :
    (∃ loop, parseLoop receiveTime fuel ⟨true, true, context, buf⟩ =
      .ok loop ∧ loop.hasMore = false) ∨
    (context.request.method ≠ .kInvalid ∧
      parseLoop receiveTime fuel ⟨true, true, context, buf⟩ =
        .error .setMethod) := by
  by_cases ready : context.Ready
  · rw [← sound.length_content] at enough
    obtain ⟨verdict, final, rest, looped, _, _⟩ :=
      parseLoop_parses receiveTime enough sound ready
    exact .inl ⟨_, looped, rfl⟩
  · obtain ⟨state, request⟩ := context
    rcases expects with line | headers
    · obtain rfl : state = .kExpectRequestLine := line
      have known : request.method ≠ .kInvalid := by
        intro unset
        exact ready (.requestLine unset)
      obtain ⟨fuel, rfl⟩ := Nat.exists_eq_add_of_lt enough
      exact (parseLoop_set known sound receiveTime _).imp_right
        fun failed => ⟨known, failed⟩
    · obtain rfl : state = .kExpectHeaders := headers
      exact (ready (.headers request)).elim

end HttpContext

/-- What the loop does on an open connection. -/
inductive ConnectionAction where
  | read (chunk : Chunk)
  | writable
  deriving DecidableEq

/-- A read event that delivers nothing is the end of the stream. -/
def ConnectionAction.Delivers : ConnectionAction → Prop
  | .read chunk => chunk.bytes ≠ []
  | .writable => True

instance ConnectionAction.decidableDelivers (action : ConnectionAction) :
    Decidable action.Delivers := by
  cases action <;> unfold ConnectionAction.Delivers <;> infer_instance

namespace HttpServer

def connectionStep (owner : LinkOwner HttpContext)
    (httpCallback : HttpCallback) (conn : HttpConnection) :
    ConnectionAction → Checked HttpConnection
  | .read chunk => receive owner httpCallback conn chunk
  | .writable => do
      let link ← conn.link.handleWrite owner
      return { conn with link }

def connectionMachine (owner : LinkOwner HttpContext)
    (httpCallback : HttpCallback) :
    Machine HttpConnection ConnectionAction Fault where
  enabled _ action := action.Delivers
  step := connectionStep owner httpCallback

instance (owner : LinkOwner HttpContext) (httpCallback : HttpCallback)
    (conn : HttpConnection) (action : ConnectionAction) :
    Decidable ((connectionMachine owner httpCallback).enabled conn action) :=
  inferInstanceAs (Decidable action.Delivers)

variable {owner : LinkOwner HttpContext} {httpCallback : HttpCallback}
variable {conn next : HttpConnection}

variable (httpCallback) in
theorem Serving.writable (calm : owner.Calm) {context : HttpContext}
    (serving : Serving conn context) :
    ∃ next, connectionStep owner httpCallback conn .writable = .ok next ∧
      Serving next context ∧ input next = input conn := by
  obtain ⟨after, result, kept⟩ := serving.steady.handleWrite_kept calm
  refine ⟨{ conn with link := after }, ?_, ⟨kept.steady, ?_, ?_⟩, ?_⟩
  · simp only [connectionStep, result]
    rfl
  · have sound : after.inputBuffer.Sound :=
      kept.inputBuffer_eq ▸ serving.input_sound
    exact sound
  · exact kept.context_eq.trans serving.context_eq
  · exact congrArg Buffer.content kept.inputBuffer_eq

/-- A connection is alive, or stuck behind a refused line. -/
def Receiving (conn : HttpConnection) : Prop :=
  (∃ pending, Alive conn pending) ∨ Stuck conn

theorem Receiving.step (calm : owner.Calm) (receiving : Receiving conn)
    {action : ConnectionAction}
    (stepped : connectionStep owner httpCallback conn action = .ok next) :
    Receiving next := by
  cases action with
  | read chunk =>
      rcases receiving with ⟨pending, alive⟩ | stuck
      · rcases alive.receive calm stepped with
          ⟨rest, _, alive⟩ | ⟨_, _, alive⟩ | ⟨_, stuck⟩
        · exact .inl ⟨rest, alive⟩
        · exact .inl ⟨_, alive⟩
        · exact .inr stuck
      · cases (stuck.receive_error chunk).symm.trans stepped
  | writable =>
      rcases receiving with ⟨pending, context, serving, ready, resumes⟩ |
        ⟨request, line, rest, serving, known, cut, spaced⟩
      · obtain ⟨other, result, servingNext, same⟩ :=
          serving.writable httpCallback calm
        cases result.symm.trans stepped
        exact .inl ⟨pending, context, servingNext, ready, same ▸ resumes⟩
      · obtain ⟨other, result, servingNext, same⟩ :=
          serving.writable httpCallback calm
        cases result.symm.trans stepped
        exact .inr ⟨request, line, rest, servingNext, known, same ▸ cut,
          spaced⟩

variable {fd : Int} {highWaterMark : Nat} {writes : List WriteResult}

theorem receiving_of_run (calm : owner.Calm) {actions : List ConnectionAction}
    (runs : (connectionMachine owner httpCallback).Run
      (newConnection fd highWaterMark writes) actions conn) :
    Receiving conn := by
  apply runs.state_invariant Receiving
  · exact .inl ⟨[], newConnection_alive fd highWaterMark writes⟩
  · intro conn action next receiving _ stepped
    exact receiving.step calm stepped

/-- A call of `parseRequest` never meets a state in which its loop is endless. -/
theorem Receiving.entry (calm : owner.Calm) (receiving : Receiving conn) :
    ∃ context, conn.link.context = some context ∧ context.ExpectsLine ∧
      ∀ chunk, receive owner httpCallback conn chunk ≠
        .error .parseRequestEndless := by
  rcases receiving with ⟨pending, alive⟩ | stuck
  · have before := alive
    obtain ⟨context, serving, ready, _⟩ := before
    refine ⟨context, serving.context_eq, ready.expectsLine, ?_⟩
    intro chunk endless
    obtain ⟨req, failed⟩ := alive.receive_fault calm endless
    have listed := HttpResponse.appendToBuffer_fault failed
    simp [Buffer.SizeT.appendFaults] at listed
  · have before := stuck
    obtain ⟨request, _, _, serving, _, _⟩ := before
    refine ⟨_, serving.context_eq, .inl rfl, ?_⟩
    intro chunk endless
    cases (stuck.receive_error chunk).symm.trans endless

/-- The loop of `parseRequest` ends in the two states that expect a line, and
in the two others never.  In every run of a connection, every call finds one of
the first two. -/
theorem parsing_ends (calm : owner.Calm) {actions : List ConnectionAction}
    (runs : (connectionMachine owner httpCallback).Run
      (newConnection fd highWaterMark writes) actions conn) :
    (∀ (context : HttpContext) (buf : Buffer) (receiveTime : Timestamp),
      buf.Sound → context.ExpectsLine →
      ∀ fuel, buf.readableBytes < fuel →
        (∃ loop, HttpContext.parseLoop receiveTime fuel
          ⟨true, true, context, buf⟩ = .ok loop ∧ loop.hasMore = false) ∨
        (context.request.method ≠ .kInvalid ∧
          HttpContext.parseLoop receiveTime fuel
            ⟨true, true, context, buf⟩ = .error .setMethod)) ∧
    (∀ (context : HttpContext) (buf : Buffer) (receiveTime : Timestamp),
      ¬ context.ExpectsLine →
      ∀ fuel, HttpContext.parseLoop receiveTime fuel
        ⟨true, true, context, buf⟩ = .error .parseRequestEndless) ∧
    ∃ context, conn.link.context = some context ∧ context.ExpectsLine ∧
      ∀ chunk, receive owner httpCallback conn chunk ≠
        .error .parseRequestEndless := by
  refine ⟨?_, ?_, (receiving_of_run calm runs).entry calm⟩
  · intro context buf receiveTime sound expects fuel enough
    exact HttpContext.parseLoop_ends expects sound receiveTime enough
  · intro context buf receiveTime other fuel
    apply HttpContext.parseLoop_endless receiveTime fuel rfl
    cases state : context.state with
    | kExpectRequestLine => exact (other (.inl state)).elim
    | kExpectHeaders => exact (other (.inr state)).elim
    | kExpectBody => exact .inl rfl
    | kGotAll => exact .inr rfl

/-- A request cut in its CRLF, with a write event in between. -/
theorem parsing_ends_example :
    ∃ conn, (connectionMachine silentOwner defaultHttpCallback).Run
        (newConnection 5 64 [.accepted 9])
        [.read ⟨ascii "GET /a HTTP/1.1\r\nHost: a\r", 1⟩, .writable,
          .read ⟨ascii "\n\r\nGET", 2⟩] conn ∧
      ∃ context, conn.link.context = some context ∧ context.ExpectsLine := by
  have found : ((connectionMachine silentOwner defaultHttpCallback).execute
      (newConnection 5 64 [.accepted 9])
      [.read ⟨ascii "GET /a HTTP/1.1\r\nHost: a\r", 1⟩, .writable,
        .read ⟨ascii "\n\r\nGET", 2⟩]).any
      (fun conn => conn.dispatched.length == 1) = true := by
    decide +kernel
  obtain ⟨conn, runs, _⟩ := Machine.run_of_execute found
  obtain ⟨_, _, context, here, expects, _⟩ :=
    parsing_ends silentOwner_quiet.calm runs
  exact ⟨conn, runs, context, here, expects⟩

end HttpServer

end Muduo
