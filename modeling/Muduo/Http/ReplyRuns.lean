import Muduo.Http.ResponseStream

/-!
# The response stream of a connection

Calls of `rcvRequest`, replies to refused requests and write events in any
order.  A link that has taken an answer without a `Content-Length` is no longer
connected, so the stream of all answers taken decodes to them, unless a string of
one of them was too long for a `StringPiece`.
-/

namespace Muduo

open Library Buffer.SizeT

/-- What `rcvMessage` sends. -/
inductive Answer where
  | built (response : HttpResponse)
  | refusal

/-- The content of a buffer, if it was filled without a fault. -/
def contentOf : Checked Buffer → List Byte
  | .ok buf => buf.content
  | .error _ => []

namespace Answer

/-- What `rcvMessage` hands to the link. -/
def data : Answer → List Byte
  | .built response =>
      contentOf (response.appendToBuffer (.new kInitialSize))
  | .refusal => badRequest

/-- What is left of the strings of an answer. -/
def appended : Answer → List Byte
  | .built response => response.appended
  | .refusal => badRequest

/-- The answer got past `appendToBuffer`. -/
def Completed : Answer → Prop
  | .built response =>
      ∃ buf, response.appendToBuffer (.new kInitialSize) = .ok buf
  | .refusal => True

/-- What a peer reads of an answer. -/
def reply : Answer → Reply
  | .built response => response.reply
  | .refusal =>
      { statusCode := HttpStatusCode.k400BadRequest.value
        statusMessage := ascii "Bad Request"
        headers := ∅
        body := [] }

/-- The answer has a `Content-Length`. -/
def HasLength : Answer → Prop
  | .built response => response.closeConnection = false
  | .refusal => False

def Readable : Answer → Prop
  | .built response => response.Readable
  | .refusal => True

instance Readable.decidable (answer : Answer) : Decidable answer.Readable :=
  match answer with
  | .built response => inferInstanceAs (Decidable response.Readable)
  | .refusal => inferInstanceAs (Decidable True)

/-- The strings of the answer pass through a `StringPiece`. -/
def Short : Answer → Prop
  | .built response => response.Short
  | .refusal => True

instance Short.decidable (answer : Answer) : Decidable answer.Short :=
  match answer with
  | .built response => inferInstanceAs (Decidable response.Short)
  | .refusal => inferInstanceAs (Decidable True)

/-- Strings no longer than a `std::string` can be. -/
def Held : Answer → Prop
  | .built response => ∀ piece ∈ response.pieces, piece.length < 2 ^ 63
  | .refusal => True

instance Held.decidable (answer : Answer) : Decidable answer.Held :=
  match answer with
  | .built response => inferInstanceAs
      (Decidable (∀ piece ∈ response.pieces, piece.length < 2 ^ 63))
  | .refusal => inferInstanceAs (Decidable True)

theorem data_built {response : HttpResponse} {buf : Buffer}
    (result : response.appendToBuffer (.new kInitialSize) = .ok buf) :
    (built response).data = buf.content := by
  have filled := congrArg contentOf result
  unfold data
  exact filled

theorem Completed.data_eq {answer : Answer} (completed : answer.Completed)
    (held : answer.Held) : answer.data = answer.appended := by
  cases answer with
  | built response =>
      obtain ⟨buf, result⟩ := completed
      rw [data_built result]
      exact (HttpResponse.appendToBuffer_returned held result).2
  | refusal => rfl

theorem Readable.delimited {answer : Answer} (readable : answer.Readable)
    (short : answer.Short) (length : answer.HasLength) :
    Delimited Reply.read answer.appended answer.reply := by
  cases answer with
  | built response =>
      exact HttpResponse.Readable.delimited readable short length
  | refusal => exact length.elim

theorem Readable.terminal {answer : Answer} (readable : answer.Readable)
    (short : answer.Short) :
    Terminal Reply.read answer.appended answer.reply := by
  cases answer with
  | built response => exact HttpResponse.Readable.terminal readable short
  | refusal =>
      have reads : Reply.read badRequest = some (refusal.reply, []) := rfl
      exact ⟨by decide, reads⟩

theorem Readable.appended_ne_nil {answer : Answer}
    (readable : answer.Readable) : answer.appended ≠ [] := by
  cases answer with
  | built response => exact response.appended_ne_nil readable.body_short
  | refusal =>
      show badRequest ≠ []
      decide

/-- An answer that is read back as it is was short. -/
theorem Readable.short_of_read {answer : Answer}
    (readable : answer.Readable) (completed : answer.Completed)
    (held : answer.Held) {rest left : List Byte}
    (read : Reply.read (answer.appended ++ rest) =
      some (answer.reply, left)) :
    answer.Short := by
  cases answer with
  | built response =>
      obtain ⟨buf, result⟩ := completed
      have within := (HttpResponse.appendToBuffer_returned held result).1
      apply HttpResponse.Readable.short_of_read readable ?_ read
      intro piece member
      exact length_passed_lt (held piece member) (within piece member)
  | refusal => trivial

end Answer

/-- A connection and the answers that its link has taken. -/
structure ReplyRun where
  conn : HttpConnection
  answers : List Answer

inductive ReplyAction where
  | rcvRequest (req : HttpRequest)
  | refuse
  | writable

namespace HttpServer

variable (owner : LinkOwner HttpContext) (httpCallback : HttpCallback)

/-- The answer, if the link takes it. -/
def takenBy (link : LinkedSocket HttpContext) (answer : Answer) :
    List Answer :=
  if link.accepts answer.data then [answer] else []

def replyStep (run : ReplyRun) : ReplyAction → Checked ReplyRun
  | .rcvRequest req => do
      let response := responseTo httpCallback run.conn.dispatched req
      let conn ← HttpServer.rcvRequest owner httpCallback run.conn req
      return { conn, answers := run.answers ++
        takenBy run.conn.link (.built response) }
  | .refuse => do
      let link ← refuseUnless owner false run.conn.link
      return { conn := { run.conn with link }, answers := run.answers ++
        takenBy run.conn.link .refusal }
  | .writable => do
      let link ← run.conn.link.handleWrite owner
      return { run with conn := { run.conn with link } }

def replyMachine : Machine ReplyRun ReplyAction Fault where
  enabled _ _ := True
  step := replyStep owner httpCallback

instance (run : ReplyRun) (action : ReplyAction) :
    Decidable ((replyMachine owner httpCallback).enabled run action) :=
  inferInstanceAs (Decidable True)

def replyStart (fd : Int) (highWaterMark : Nat)
    (writes : List WriteResult) : ReplyRun :=
  { conn := newConnection fd highWaterMark writes, answers := [] }

variable {owner} {httpCallback}

/-- The outgoing bytes are those of the answers; only the last one may lack a
length, and only when the link is no longer connected. -/
structure Streaming (link : LinkedSocket HttpContext)
    (answers : List Answer) : Prop where
  steady : link.Steady
  completed : ∀ answer ∈ answers, answer.Completed
  outgoing_eq : link.outgoing = answers.flatMap Answer.data
  open_lengths : link.state = .kConnected →
    ∀ answer ∈ answers, answer.HasLength
  lengths : ∀ answer ∈ answers.dropLast, answer.HasLength

/-- What a send of an answer does, when the link is shut down behind one that
has no length. -/
theorem Streaming.answer {link sent after : LinkedSocket HttpContext}
    {answers : List Answer} (streaming : Streaming link answers)
    {answer : Answer} (completed : answer.Completed)
    (takes : link.Takes sent
      (if link.accepts answer.data then answer.data else []))
    (steady : after.Steady) (same : after.outgoing = sent.outgoing)
    (closed : ¬ answer.HasLength → after.state ≠ .kConnected)
    (kept : answer.HasLength → after.state = sent.state) :
    Streaming after (answers ++ takenBy link answer) := by
  have outgoing := takes.outgoing_eq
  by_cases accepted : link.accepts answer.data = true
  · have connected : link.state = .kConnected := by
      simp only [LinkedSocket.accepts, LinkedSocket.connected,
        Bool.and_eq_true, beq_iff_eq] at accepted
      exact accepted.1
    have before := streaming.open_lengths connected
    rw [takenBy, if_pos accepted]
    rw [if_pos accepted] at outgoing
    constructor
    · exact steady
    · intro other member
      rcases List.mem_append.mp member with old | new
      · exact streaming.completed other old
      · obtain rfl := List.mem_singleton.mp new
        exact completed
    · rw [same, outgoing, streaming.outgoing_eq]
      simp
    · intro open_ other member
      rcases List.mem_append.mp member with old | new
      · exact before other old
      · obtain rfl := List.mem_singleton.mp new
        by_cases length : other.HasLength
        · exact length
        · exact (closed length open_).elim
    · rwa [List.dropLast_concat]
  · rw [takenBy, if_neg accepted, List.append_nil]
    rw [if_neg accepted, List.append_nil] at outgoing
    constructor
    · exact steady
    · exact streaming.completed
    · rw [same, outgoing, streaming.outgoing_eq]
    · intro open_
      by_cases length : answer.HasLength
      · rw [kept length, takes.state_eq] at open_
        exact streaming.open_lengths open_
      · exact (closed length open_).elim
    · exact streaming.lengths

theorem Streaming.step (quiet : owner.Quiet) {run next : ReplyRun}
    (streaming : Streaming run.conn.link run.answers) {action : ReplyAction}
    (stepped : replyStep owner httpCallback run action = .ok next) :
    Streaming next.conn.link next.answers := by
  cases action with
  | rcvRequest req =>
      obtain ⟨conn, answered, rest⟩ := bind_eq_ok stepped
      obtain rfl := Except.ok.inj rest
      obtain ⟨buf, sent, result, rfl, takes⟩ :=
        rcvRequest_takes quiet streaming.steady rfl answered
      rw [← Answer.data_built result] at takes
      have closing := shutdownIf_kept takes.kept.steady
        (responseTo httpCallback run.conn.dispatched req).closeConnection
      have completed : (Answer.built (responseTo httpCallback
          run.conn.dispatched req)).Completed := ⟨buf, result⟩
      apply streaming.answer completed takes closing.steady
        (outgoing_shutdownIf _ sent)
      · intro noLength
        have closes := Bool.of_not_eq_false noLength
        simp only [closes]
        exact state_shutdownIf_true sent
      · intro length
        have stays : (responseTo httpCallback run.conn.dispatched
            req).closeConnection = false := length
        simp only [stays]
        exact state_shutdownIf_false sent
  | refuse =>
      obtain ⟨sent, result, takes⟩ :=
        refuse_takes quiet streaming.steady
      simp only [replyStep, result, ok_bind] at stepped
      obtain rfl := Except.ok.inj stepped
      exact streaming.answer trivial takes
        takes.kept.steady.shutdown.kept.steady sent.outgoing_shutdown
        (fun _ => sent.shutdown_not_connected) False.elim
  | writable =>
      obtain ⟨after, result, takes⟩ :=
        streaming.steady.handleWrite_takes quiet
      simp only [replyStep, result, ok_bind] at stepped
      obtain rfl := Except.ok.inj stepped
      refine ⟨takes.kept.steady, streaming.completed, ?_, ?_,
        streaming.lengths⟩
      · rw [takes.outgoing_eq, List.append_nil, streaming.outgoing_eq]
      · intro open_
        exact streaming.open_lengths (takes.state_eq.symm.trans open_)

section Runs

variable {fd : Int} {highWaterMark : Nat} {writes : List WriteResult}
variable {actions : List ReplyAction} {run : ReplyRun}

theorem streaming_of_run (quiet : owner.Quiet)
    (runs : (replyMachine owner httpCallback).Run
      (replyStart fd highWaterMark writes) actions run) :
    Streaming run.conn.link run.answers := by
  apply runs.state_invariant
    (fun run => Streaming run.conn.link run.answers)
  · constructor
    · exact (newConnection_serving fd highWaterMark writes).steady
    · intro answer member
      cases member
    · rfl
    · intro _ answer member
      cases member
    · intro answer member
      cases member
  · intro run action next streaming _ stepped
    exact streaming.step quiet stepped

theorem Streaming.decode_iff {link : LinkedSocket HttpContext}
    {answers : List Answer} (streaming : Streaming link answers)
    (readable : ∀ answer ∈ answers, answer.Readable)
    (held : ∀ answer ∈ answers, answer.Held) :
    decodeFrames Reply.read link.outgoing =
        some (answers.map Answer.reply) ↔
      ∀ answer ∈ answers, answer.Short := by
  have whole : link.outgoing = answers.flatMap Answer.appended := by
    have same : ∀ answer ∈ answers, answer.data = answer.appended := by
      intro answer member
      exact (streaming.completed answer member).data_eq (held answer member)
    rw [streaming.outgoing_eq, List.flatMap_def, List.flatMap_def,
      List.map_congr_left same]
  rw [whole]
  apply decodeFrames_flatMap_iff
  · intro answer member rest left read
    exact (readable answer member).short_of_read
      (streaming.completed answer member) (held answer member) read
  · intro answer member
    exact (readable answer member).appended_ne_nil
  · intro answer early short
    exact (readable answer (List.dropLast_subset _ early)).delimited short
      (streaming.lengths answer early)
  · intro answer member short
    exact (readable answer member).terminal short

theorem Streaming.last {link : LinkedSocket HttpContext}
    {answers before after : List Answer} {answer : Answer}
    (streaming : Streaming link answers)
    (split : answers = before ++ answer :: after)
    (noLength : ¬ answer.HasLength) : after = [] := by
  by_contra more
  have early : answer ∈ answers.dropLast := by
    rw [split, List.dropLast_append_of_ne_nil (List.cons_ne_nil _ _),
      List.dropLast_cons_of_ne_nil more]
    exact List.mem_append_right _ List.mem_cons_self
  exact noLength (streaming.lengths answer early)

/-- The bytes that a link has taken, in any run of answers and write events,
decode to the answers taken exactly if their messages and headers are shorter than
`2 ^ 31` bytes; one without a `Content-Length` is the last in any case. -/
theorem replies_decode_iff (quiet : owner.Quiet)
    (runs : (replyMachine owner httpCallback).Run
      (replyStart fd highWaterMark writes) actions run)
    (readable : ∀ answer ∈ run.answers, answer.Readable)
    (held : ∀ answer ∈ run.answers, answer.Held) :
    (decodeFrames Reply.read
        (run.conn.link.kernel.accepted ++
          run.conn.link.outputBuffer.content) =
      some (run.answers.map Answer.reply) ∧
    ∀ before answer after, run.answers = before ++ answer :: after →
      ¬ answer.HasLength → after = []) ↔
    ∀ answer ∈ run.answers, answer.Short := by
  have streaming := streaming_of_run quiet runs
  have decodes := streaming.decode_iff readable held
  constructor
  · rintro ⟨read, _⟩
    exact decodes.mp read
  · intro short
    refine ⟨decodes.mpr short, ?_⟩
    intro before answer after split noLength
    exact streaming.last split noLength

/-- Answers with a body that looks like a response; the third one closes the
connection. -/
def nestedCallback : HttpCallback := fun dispatched _ response =>
  { response with
    headers := response.headers.insert (ascii "Server") (ascii "a: b: c")
    statusCode := .k200Ok
    statusMessage := ascii "OK"
    closeConnection := dispatched.length == 2
    body := badRequest }

theorem replies_decode_four :
    ∃ run, (replyMachine silentOwner nestedCallback).Run
        (replyStart 5 64 [.accepted 7, .accepted 50])
        [.rcvRequest .new, .writable, .rcvRequest .new, .rcvRequest .new,
          .refuse] run ∧
      run.answers.length = 3 ∧
      decodeFrames Reply.read
          (run.conn.link.kernel.accepted ++
            run.conn.link.outputBuffer.content) =
        some (run.answers.map Answer.reply) := by
  have found : ((replyMachine silentOwner nestedCallback).execute
      (replyStart 5 64 [.accepted 7, .accepted 50])
      [.rcvRequest .new, .writable, .rcvRequest .new, .rcvRequest .new,
        .refuse]).any (fun run => run.answers.length = 3 ∧
          ∀ answer ∈ run.answers,
            answer.Readable ∧ answer.Held ∧ answer.Short) = true := by
    decide +kernel
  obtain ⟨run, runs, accepted⟩ := Machine.run_of_execute found
  obtain ⟨three, all⟩ := of_decide_eq_true accepted
  have decodes := replies_decode_iff silentOwner_quiet runs
    (fun answer member => (all answer member).1)
    (fun answer member => (all answer member).2.1)
  exact ⟨run, runs, three,
    (decodes.mpr fun answer member => (all answer member).2.2).1⟩

/-- An answer with another status message. -/
def plainResponse (message : List Byte) : HttpResponse :=
  { HttpResponse.new false with
    statusCode := .k200Ok
    statusMessage := message }

theorem plainResponse_pieces (message : List Byte) :
    (plainResponse message).pieces =
      HttpResponse.formatted ("HTTP/1.1 " ++ toString 200 ++ " ") ::
        message :: (plainResponse []).pieces.drop 2 := rfl

theorem forall_mem_plainResponse {property : List Byte → Prop}
    {message : List Byte} (own : property message)
    (others : ∀ piece ∈ (plainResponse []).pieces, property piece) :
    ∀ piece ∈ (plainResponse message).pieces, property piece := by
  intro piece member
  rw [plainResponse_pieces] at member
  rcases List.mem_cons.mp member with rfl | member
  · exact others _ List.mem_cons_self
  · rcases List.mem_cons.mp member with rfl | member
    · exact own
    · exact others _ (List.mem_of_mem_drop member)

def longMessage : List Byte := List.replicate (2 ^ 32) 97

/-- The callback answers with a status message of `2 ^ 32` bytes. -/
def longCallback : HttpCallback := fun _ _ response =>
  { response with statusCode := .k200Ok, statusMessage := longMessage }

theorem length_longMessage : longMessage.length = 2 ^ 32 :=
  List.length_replicate

theorem truncated_longMessage : truncated longMessage = 0 := by
  rw [truncated, length_longMessage]
  decide

/-- Without a message the answer is as it should be. -/
theorem plainResponse_fits :
    (plainResponse []).Readable ∧ (plainResponse []).Sized := by
  decide +kernel

/-- Nothing passes of the long message. -/
theorem appended_longMessage :
    (plainResponse longMessage).appended = (plainResponse []).appended := by
  have dropped : passed longMessage = passed [] := by
    rw [passed, truncated_longMessage]
    rfl
  rw [HttpResponse.appended, HttpResponse.appended, plainResponse_pieces,
    plainResponse_pieces []]
  simp only [List.flatMap_cons, dropped, List.drop_succ_cons, List.drop_zero]

theorem appendToBuffer_longMessage :
    ∃ buf, (plainResponse longMessage).appendToBuffer (.new kInitialSize) =
      .ok buf := by
  have sized := plainResponse_fits.2
  have within : ∀ piece ∈ (plainResponse longMessage).pieces,
      truncated piece ≤ piece.length := by
    apply forall_mem_plainResponse
    · rw [truncated_longMessage]
      exact Nat.zero_le _
    · exact sized.within
  have room : (plainResponse longMessage).appended.length < 2 ^ 61 := by
    rw [appended_longMessage, HttpResponse.appended_eq_bytes sized.pieces]
    exact sized.total
  obtain ⟨buf, result, _⟩ := HttpResponse.appendToBuffer_fits within room
  exact ⟨buf, result⟩

theorem readable_longMessage : (plainResponse longMessage).Readable := by
  have others := plainResponse_fits.1
  refine ⟨⟨?_, ?_⟩, others.names, others.values, others.body_short⟩
  · intro occurs
    cases List.eq_of_mem_replicate occurs
  · intro occurs
    cases List.eq_of_mem_replicate occurs

theorem held_longMessage :
    (Answer.built (plainResponse longMessage)).Held := by
  apply forall_mem_plainResponse
  · rw [length_longMessage]
    decide
  · intro piece member
    have short := plainResponse_fits.2.pieces piece member
    omega

/-- The bytes sent lack the message, and so does what is read back. -/
theorem replies_decode_long_message :
    ∃ run, (replyMachine silentOwner longCallback).Run
        (replyStart 5 64 []) [.rcvRequest .new] run ∧
      run.answers = [.built (plainResponse longMessage)] ∧
      (plainResponse longMessage).Readable ∧
      decodeFrames Reply.read
          (run.conn.link.kernel.accepted ++
            run.conn.link.outputBuffer.content) ≠
        some (run.answers.map Answer.reply) := by
  have builds : responseTo longCallback (replyStart 5 64 []).conn.dispatched
      .new = plainResponse longMessage := rfl
  obtain ⟨buf, appended⟩ := appendToBuffer_longMessage
  rw [← builds] at appended
  obtain ⟨conn, answered⟩ : ∃ conn, rcvRequest silentOwner longCallback
      (replyStart 5 64 []).conn .new = .ok conn :=
    rcvRequest_of_appended silentOwner_quiet
      (newConnection_serving 5 64 []).steady appended
  have accepting : (replyStart 5 64 []).conn.link.accepts
      (Answer.built (plainResponse longMessage)).data = true := rfl
  have stepped : replyStep silentOwner longCallback (replyStart 5 64 [])
      (.rcvRequest .new) =
        .ok ⟨conn, [.built (plainResponse longMessage)]⟩ := by
    simp only [replyStep, answered, ok_bind]
    rw [takenBy, builds, if_pos accepting]
    rfl
  have runs : (replyMachine silentOwner longCallback).Run
      (replyStart 5 64 []) [.rcvRequest .new]
      ⟨conn, [.built (plainResponse longMessage)]⟩ :=
    .head .refl trivial stepped
  refine ⟨_, runs, rfl, readable_longMessage, ?_⟩
  intro decodes
  have exactly := (streaming_of_run silentOwner_quiet runs).decode_iff
    (List.forall_mem_singleton.mpr readable_longMessage)
    (List.forall_mem_singleton.mpr held_longMessage)
  have short := exactly.mp decodes _ List.mem_cons_self
  have message : longMessage.length < 2 ^ 31 := short.message
  rw [length_longMessage] at message
  omega

end Runs

end HttpServer

end Muduo
