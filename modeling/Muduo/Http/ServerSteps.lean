import Muduo.Http.Appending
import Muduo.Http.Refusals
import Muduo.Net.LinkCallbacks

/-!
# One read of the server

A read lets the input grow and calls `rcvMessage`.  `rcvMessage_serving` says
what the call does to a connection whose context may parse, if it completes;
`rcvMessage_fault` that nothing but the append of a response can stop it, and
`rcvMessage_setMethod` what happens when the context has stopped at a request line
whose method it knew.
-/

namespace Muduo

theorem LinkedSocket.Steady.of_eq {link other : LinkedSocket HttpContext}
    (steady : link.Steady) (handler : other.handler = link.handler)
    (output : other.outputBuffer = link.outputBuffer) : other.Steady where
  added := handler ▸ steady.added
  reading := handler ▸ steady.reading
  output_sound := output ▸ steady.output_sound
  writing_iff := by
    rw [LinkedSocket.isWriting, handler, output]
    exact steady.writing_iff

namespace HttpServer

variable {owner : LinkOwner HttpContext} {httpCallback : HttpCallback}
variable {link : LinkedSocket HttpContext}

theorem shutdownIf_kept (steady : link.Steady) (close : Bool) :
    link.Kept (shutdownIf close link) := by
  cases close with
  | true => exact steady.shutdown.kept
  | false => exact steady.refl_kept

theorem refuseUnless_kept (calm : owner.Calm) (steady : link.Steady)
    (ok : Bool) :
    ∃ after, refuseUnless owner ok link = .ok after ∧ link.Kept after := by
  cases ok with
  | true => exact ⟨link, rfl, steady.refl_kept⟩
  | false =>
      obtain ⟨answered, sent, sending⟩ := steady.send_kept calm badRequest
      have closing := sending.steady.shutdown.kept
      refine ⟨answered.shutdown, ?_, sending.trans closing⟩
      simp only [refuseUnless, sent, ok_bind]
      rfl

theorem rcvRequest_kept (calm : owner.Calm) {conn after : HttpConnection}
    (steady : conn.link.Steady) {req : HttpRequest}
    (answered : rcvRequest owner httpCallback conn req = .ok after) :
    conn.link.Kept after.link ∧
      after.dispatched = conn.dispatched ++ [req] := by
  obtain ⟨buf, _, sends⟩ := bind_eq_ok answered
  obtain ⟨sent, rest, result, sending⟩ := steady.sendBuffer_kept calm buf
  rw [result, ok_bind] at sends
  obtain rfl := Except.ok.inj sends
  exact ⟨sending.trans (shutdownIf_kept sending.steady _), rfl⟩

/-- Only the append of the response stops a call of `rcvRequest`. -/
theorem rcvRequest_fault (calm : owner.Calm) {conn : HttpConnection}
    (steady : conn.link.Steady) {req : HttpRequest} {fault : Fault}
    (failed : rcvRequest owner httpCallback conn req = .error fault) :
    (httpCallback conn.dispatched req (.new (closes req))).appendToBuffer
      (.new kInitialSize) = .error fault := by
  rcases bind_eq_error failed with stopped | ⟨buf, _, sends⟩
  · exact stopped
  · obtain ⟨sent, rest, result, _⟩ := steady.sendBuffer_kept calm buf
    rw [result, ok_bind] at sends
    cases sends

/-- The link is steady, its input is sound, and the context is the given one. -/
structure Serving (conn : HttpConnection) (context : HttpContext) :
    Prop where
  steady : conn.link.Steady
  input_sound : conn.link.inputBuffer.Sound
  context_eq : conn.link.context = some context

/-- The bytes received and not consumed. -/
def input (conn : HttpConnection) : List Byte := conn.link.inputBuffer.content

/-- The connection with another input buffer. -/
def grown (conn : HttpConnection) (inputBuffer : Buffer) : HttpConnection :=
  { conn with link := { conn.link with inputBuffer } }

theorem Serving.grown {conn : HttpConnection} {context : HttpContext}
    (serving : Serving conn context) {filled : Buffer} (sound : filled.Sound) :
    Serving (grown conn filled) context :=
  ⟨serving.steady.of_eq rfl rfl, sound, serving.context_eq⟩

/-- A read is a call of `rcvMessage` with a longer input. -/
theorem receive_eq {conn : HttpConnection}
    (sound : conn.link.inputBuffer.Sound) (chunk : Chunk) :
    ∃ filled, conn.link.inputBuffer.readFd (.ok chunk.bytes) = .ok filled ∧
      filled.Sound ∧
      input (grown conn filled) = input conn ++ chunk.bytes ∧
      receive owner httpCallback conn chunk =
        rcvMessage owner httpCallback (grown conn filled)
          chunk.receiveTime := by
  obtain ⟨filled, read, becomes⟩ := sound.readFd chunk.bytes
  refine ⟨filled, read, becomes.sound, becomes.content_eq, ?_⟩
  simp only [receive, read, ok_bind]
  rfl

theorem newConnection_serving (fd : Int) (highWaterMark : Nat)
    (writes : List WriteResult) :
    Serving (newConnection fd highWaterMark writes) .new where
  steady := (LinkedSocket.registered_steady fd highWaterMark
    { writes, accepted := [] }).of_eq rfl rfl
  input_sound := Buffer.new_sound _
  context_eq := rfl

theorem input_newConnection (fd : Int) (highWaterMark : Nat)
    (writes : List WriteResult) :
    input (newConnection fd highWaterMark writes) = [] :=
  Buffer.content_new _

/-- The context that a call of `rcvMessage` leaves. -/
def contextAfter (verdict : Verdict) (final : HttpContext) : HttpContext :=
  if verdict = .complete then .new else final

/-- The requests that a call of `rcvMessage` dispatches. -/
def dispatchedBy (verdict : Verdict) (final : HttpContext) :
    List HttpRequest :=
  if verdict = .complete then [final.request] else []

theorem dispatchIf_serving (calm : owner.Calm) {conn next : HttpConnection}
    {final : HttpContext} (serving : Serving conn final) {verdict : Verdict}
    (gotAll : final.gotAll = (verdict == .complete))
    (result : dispatchIf owner httpCallback conn final = .ok next) :
    Serving next (contextAfter verdict final) ∧ input next = input conn ∧
      next.dispatched = conn.dispatched ++ dispatchedBy verdict final := by
  by_cases complete : verdict = .complete
  · have got : final.gotAll = true := by simp [gotAll, complete]
    rw [dispatchIf, if_pos got] at result
    obtain ⟨answered, called, resets⟩ := bind_eq_ok result
    obtain ⟨kept, dispatched⟩ := rcvRequest_kept calm serving.steady called
    obtain rfl := Except.ok.inj resets
    rw [contextAfter, dispatchedBy, if_pos complete, if_pos complete]
    have sound : answered.link.inputBuffer.Sound :=
      kept.inputBuffer_eq ▸ serving.input_sound
    exact ⟨⟨kept.steady.of_eq rfl rfl, sound, rfl⟩,
      congrArg Buffer.content kept.inputBuffer_eq, dispatched⟩
  · have waits : ¬ final.gotAll = true := by simp [gotAll, complete]
    rw [dispatchIf, if_neg waits] at result
    obtain rfl := Except.ok.inj result
    rw [contextAfter, dispatchedBy, if_neg complete, if_neg complete,
      List.append_nil]
    exact ⟨serving, rfl, rfl⟩

theorem dispatchIf_fault (calm : owner.Calm) {conn : HttpConnection}
    (steady : conn.link.Steady) {final : HttpContext} {fault : Fault}
    (failed : dispatchIf owner httpCallback conn final = .error fault) :
    ∃ req, (httpCallback conn.dispatched req
      (.new (closes req))).appendToBuffer (.new kInitialSize) =
        .error fault := by
  rw [dispatchIf] at failed
  split at failed
  · rcases bind_eq_error failed with stopped | ⟨answered, _, resets⟩
    · exact ⟨final.request, rcvRequest_fault calm steady stopped⟩
    · cases resets
  · cases failed

variable (httpCallback) in
/-- A call of `rcvMessage` with a context that may parse, up to the test of
`gotAll`. -/
theorem rcvMessage_parsed (calm : owner.Calm) {conn : HttpConnection}
    {context : HttpContext} (serving : Serving conn context)
    (ready : context.Ready) (receiveTime : Timestamp) :
    ∃ verdict final link,
      rcvMessage owner httpCallback conn receiveTime =
        dispatchIf owner httpCallback { conn with link } final ∧
      Parses context.timeless (input conn) verdict final.timeless
        link.inputBuffer.content ∧
      Serving { conn with link } final := by
  obtain ⟨verdict, final, rest, parsed, soundRest, parses⟩ :=
    context.parseRequest_parses ready serving.input_sound receiveTime
  let link : LinkedSocket HttpContext :=
    { conn.link with inputBuffer := rest, context := some final }
  have steady : link.Steady := serving.steady.of_eq rfl rfl
  obtain ⟨answered, refused, kept⟩ := refuseUnless_kept calm steady verdict.ok
  have sound : answered.inputBuffer.Sound :=
    kept.inputBuffer_eq ▸ soundRest
  refine ⟨verdict, final, answered, ?_, ?_, kept.steady, sound,
    kept.context_eq⟩
  · simp only [rcvMessage, serving.context_eq, parsed, ok_bind]
    rw [refused]
    rfl
  · have left : answered.inputBuffer.content = rest.content :=
      congrArg Buffer.content kept.inputBuffer_eq
    rwa [left]

/-- A call of `rcvMessage` with a context that may parse, if it completes: what
parsing the input yields, and the request dispatched if it is complete. -/
theorem rcvMessage_serving (calm : owner.Calm) {conn next : HttpConnection}
    {context : HttpContext} (serving : Serving conn context)
    (ready : context.Ready) {receiveTime : Timestamp}
    (received : rcvMessage owner httpCallback conn receiveTime = .ok next) :
    ∃ verdict final,
      Parses context.timeless (input conn) verdict final.timeless
        (input next) ∧
      Serving next (contextAfter verdict final) ∧
      next.dispatched = conn.dispatched ++ dispatchedBy verdict final := by
  obtain ⟨verdict, final, link, becomes, parses, servingFinal⟩ :=
    rcvMessage_parsed httpCallback calm serving ready receiveTime
  rw [becomes] at received
  obtain ⟨servingNext, left, dispatched⟩ :=
    dispatchIf_serving calm servingFinal parses.gotAll_eq received
  refine ⟨verdict, final, ?_, servingNext, dispatched⟩
  rw [left]
  exact parses

theorem rcvMessage_fault (calm : owner.Calm) {conn : HttpConnection}
    {context : HttpContext} (serving : Serving conn context)
    (ready : context.Ready) {receiveTime : Timestamp} {fault : Fault}
    (failed : rcvMessage owner httpCallback conn receiveTime =
      .error fault) :
    ∃ req, (httpCallback conn.dispatched req
      (.new (closes req))).appendToBuffer (.new kInitialSize) =
        .error fault := by
  obtain ⟨verdict, final, link, becomes, _, servingFinal⟩ :=
    rcvMessage_parsed httpCallback calm serving ready receiveTime
  rw [becomes] at failed
  exact dispatchIf_fault calm servingFinal.steady failed

variable (owner httpCallback) in
theorem Serving.receive_eq {conn : HttpConnection} {context : HttpContext}
    (serving : Serving conn context) (chunk : Chunk) :
    ∃ filled, Serving (HttpServer.grown conn filled) context ∧
      input (HttpServer.grown conn filled) = input conn ++ chunk.bytes ∧
      receive owner httpCallback conn chunk =
        rcvMessage owner httpCallback (HttpServer.grown conn filled)
          chunk.receiveTime := by
  obtain ⟨filled, _, sound, content, received⟩ :=
    HttpServer.receive_eq serving.input_sound chunk
  exact ⟨filled, serving.grown sound, content, received⟩

theorem receive_serving (calm : owner.Calm) {conn next : HttpConnection}
    {context : HttpContext} (serving : Serving conn context)
    (ready : context.Ready) {chunk : Chunk}
    (received : receive owner httpCallback conn chunk = .ok next) :
    ∃ verdict final,
      Parses context.timeless (input conn ++ chunk.bytes) verdict
        final.timeless (input next) ∧
      Serving next (contextAfter verdict final) ∧
      next.dispatched = conn.dispatched ++ dispatchedBy verdict final := by
  obtain ⟨filled, grown, content, becomes⟩ :=
    serving.receive_eq owner httpCallback chunk
  rw [becomes] at received
  rw [← content]
  exact rcvMessage_serving calm grown ready received

theorem receive_fault (calm : owner.Calm) {conn : HttpConnection}
    {context : HttpContext} (serving : Serving conn context)
    (ready : context.Ready) {chunk : Chunk} {fault : Fault}
    (failed : receive owner httpCallback conn chunk = .error fault) :
    ∃ req, (httpCallback conn.dispatched req
      (.new (closes req))).appendToBuffer (.new kInitialSize) =
        .error fault := by
  obtain ⟨filled, grown, _, becomes⟩ :=
    serving.receive_eq owner httpCallback chunk
  rw [becomes] at failed
  exact rcvMessage_fault calm grown ready failed

/-- The responses of an appending callback stop nothing. -/
theorem completes_of_appending (callback : AppendingCallback)
    {dispatched : List HttpRequest} {outcome : Checked HttpConnection}
    (appends : ∀ fault, outcome = .error fault →
      ∃ req, (callback.respond dispatched req
        (.new (closes req))).appendToBuffer (.new kInitialSize) =
          .error fault) :
    ∃ next, outcome = .ok next := by
  cases outcome with
  | ok next => exact ⟨next, rfl⟩
  | error fault =>
      obtain ⟨req, failed⟩ := appends fault rfl
      obtain ⟨after, returned⟩ :=
        callback.appends dispatched req (closes req)
      cases failed.symm.trans returned

/-- A call of `rcvMessage` with a context that has stopped at a request line
after its method. -/
theorem rcvMessage_setMethod {conn : HttpConnection} {request : HttpRequest}
    (serving : Serving conn ⟨.kExpectRequestLine, request⟩)
    (known : request.method ≠ .kInvalid) {line rest : List Byte}
    (cut : cutLine (input conn) = some (line, rest))
    (spaced : space ∈ line) (receiveTime : Timestamp) :
    rcvMessage owner httpCallback conn receiveTime = .error .setMethod := by
  have stopped : HttpContext.parseRequest ⟨.kExpectRequestLine, request⟩
      conn.link.inputBuffer receiveTime = .error .setMethod :=
    HttpContext.parseRequest_failed serving.input_sound cut
      (HttpRequest.processRequestLine_set known spaced)
  simp only [rcvMessage, serving.context_eq, stopped]
  rfl

end HttpServer

end Muduo
