import Muduo.Http.Dispatch
import Muduo.Http.LateRequests
import Muduo.Http.ReplyRuns

/-!
# Conversations

A client sends requests, and a connection of the server answers them.  Between
the bytes of the requests and the bytes of the replies stand the reads of the
loop, the parser, the callback, `appendToBuffer` and the partial writes of the
link; what the client reads back depends on none of them but the callback.
-/

namespace Muduo

open Library

namespace HttpServer

open RequestText

variable (httpCallback : HttpCallback)

/-- The responses to requests that follow on `before`: the first one that closes
the connection is the last. -/
def conversation (before : List HttpRequest) :
    List HttpRequest → List HttpResponse
  | [] => []
  | req :: reqs =>
      let response := responseTo httpCallback before req
      if response.closeConnection then [response]
      else response :: conversation (before ++ [req]) reqs

/-- The callback does not look at the time at which a request was received. -/
def Timeless : Prop :=
  ∀ before req, responseTo httpCallback before req =
    responseTo httpCallback (before.map HttpRequest.timeless) req.timeless

/-- The chunks that the reads of a run deliver. -/
def delivered (actions : List ConnectionAction) : List Chunk :=
  actions.filterMap fun action =>
    match action with
    | .read chunk => some chunk
    | .writable => none

variable {httpCallback}

theorem conversation_timeless (timeless : Timeless httpCallback)
    (before reqs : List HttpRequest) :
    conversation httpCallback before reqs =
      conversation httpCallback (before.map HttpRequest.timeless)
        (reqs.map HttpRequest.timeless) := by
  induction reqs generalizing before with
  | nil => rfl
  | cons req reqs induction =>
      have later := induction (before ++ [req])
      rw [List.map_append, List.map_singleton] at later
      simp only [conversation, List.map_cons, timeless before req, later]

theorem Closing.append {dispatched : List HttpRequest}
    (closing : Closing httpCallback dispatched) (more : List HttpRequest) :
    Closing httpCallback (dispatched ++ more) := by
  obtain ⟨before, req, after, rfl, closes⟩ := closing
  exact ⟨before, req, after ++ more, by simp, closes⟩

/-- As long as no response closes the connection, one more request is answered. -/
theorem conversation_concat {before reqs : List HttpRequest}
    (open_ : ¬ Closing httpCallback (before ++ reqs)) (req : HttpRequest) :
    conversation httpCallback before (reqs ++ [req]) =
      conversation httpCallback before reqs ++
        [responseTo httpCallback (before ++ reqs) req] := by
  induction reqs generalizing before with
  | nil =>
      simp only [List.append_nil, List.nil_append, conversation, ite_self]
  | cons first reqs induction =>
      have stays : ¬ (responseTo httpCallback before
          first).closeConnection = true := by
        intro closes
        exact open_ ⟨before, first, reqs, rfl, closes⟩
      have same : before ++ first :: reqs = before ++ [first] ++ reqs := by
        simp
      rw [same] at open_ ⊢
      have rest := induction open_
      simp only [List.cons_append, conversation, if_neg stays, rest]

/-- Behind a response that closes the connection nothing is answered. -/
theorem conversation_concat_closing {before reqs : List HttpRequest}
    (open_ : ¬ Closing httpCallback before)
    (closing : Closing httpCallback (before ++ reqs)) (req : HttpRequest) :
    conversation httpCallback before (reqs ++ [req]) =
      conversation httpCallback before reqs := by
  induction reqs generalizing before with
  | nil =>
      rw [List.append_nil] at closing
      exact absurd closing open_
  | cons first reqs induction =>
      by_cases closes : (responseTo httpCallback before
          first).closeConnection = true
      · simp only [List.cons_append, conversation, if_pos closes]
      · have still : ¬ Closing httpCallback (before ++ [first]) := by
          rw [closing_concat, not_or]
          exact ⟨open_, closes⟩
        have same : before ++ first :: reqs = before ++ [first] ++ reqs := by
          simp
        rw [same] at closing
        have rest := induction still closing
        simp only [List.cons_append, conversation, if_neg closes, rest]

theorem stays_of_mem_dropLast {before reqs : List HttpRequest}
    {response : HttpResponse}
    (early : response ∈ (conversation httpCallback before reqs).dropLast) :
    response.closeConnection = false := by
  induction reqs generalizing before with
  | nil => cases early
  | cons req reqs induction =>
      rw [conversation] at early
      split at early
      next closes => cases early
      next stays =>
        cases rest : conversation httpCallback (before ++ [req]) reqs with
        | nil => simp [rest] at early
        | cons second others =>
            rw [List.dropLast_cons_of_ne_nil (by simp [rest])] at early
            rcases List.mem_cons.mp early with rfl | later
            · exact Bool.eq_false_iff.mpr stays
            · exact induction later

theorem exists_of_mem_conversation {before reqs : List HttpRequest}
    {response : HttpResponse}
    (member : response ∈ conversation httpCallback before reqs) :
    ∃ earlier req, responseTo httpCallback earlier req = response := by
  induction reqs generalizing before with
  | nil => cases member
  | cons req reqs induction =>
      rw [conversation] at member
      split at member
      next closes =>
        exact ⟨before, req, (List.mem_singleton.mp member).symm⟩
      next stays =>
        rcases List.mem_cons.mp member with rfl | later
        · exact ⟨before, req, rfl⟩
        · exact induction later

/-- Every response of the callback can be read back, and its strings pass through
a `StringPiece`. -/
structure ReadsBack (httpCallback : HttpCallback) : Prop where
  readable : ∀ before req, (responseTo httpCallback before req).Readable
  short : ∀ before req, (responseTo httpCallback before req).Short

theorem ReadsBack.pieces_short (readsBack : ReadsBack httpCallback)
    (before : List HttpRequest) (req : HttpRequest) :
    ∀ piece ∈ (responseTo httpCallback before req).pieces,
      piece.length < 2 ^ 31 :=
  (readsBack.readable before req).pieces_short (readsBack.short before req)

/-- The bytes of a conversation decode to its replies. -/
theorem ReadsBack.decode_conversation (readsBack : ReadsBack httpCallback)
    (before reqs : List HttpRequest) :
    decodeFrames Reply.read
        ((conversation httpCallback before reqs).flatMap
          HttpResponse.appended) =
      some ((conversation httpCallback before reqs).map
        HttpResponse.reply) := by
  apply decodeFrames_flatMap
  · intro response early
    obtain ⟨earlier, req, rfl⟩ :=
      exists_of_mem_conversation (List.dropLast_subset _ early)
    exact (readsBack.readable earlier req).delimited
      (readsBack.short earlier req) (stays_of_mem_dropLast early)
  · intro response member
    obtain ⟨earlier, req, rfl⟩ := exists_of_mem_conversation member
    exact (readsBack.readable earlier req).terminal
      (readsBack.short earlier req)

section Links

variable {owner : LinkOwner HttpContext} {conn : HttpConnection}
  {context : HttpContext}

/-- What goes out, unless a direct write meets a broken connection. -/
structure Sends (before after : LinkedSocket HttpContext)
    (data : List Byte) : Prop where
  trace_prefix : before.trace <+: after.trace
  outgoing_eq : after.Healthy → after.outgoing = before.outgoing ++ data

theorem Sends.of_flow {before after : LinkedSocket HttpContext}
    {data : List Byte} (flow : before.Flow after data) :
    Sends before after data :=
  ⟨flow.trace_prefix, flow.outgoing_eq⟩

/-- What a call of `rcvRequest` does to the sending side. -/
structure Answers (httpCallback : HttpCallback) (conn : HttpConnection)
    (req : HttpRequest) (next : HttpConnection) : Prop where
  sends : Sends conn.link next.link
    (conn.link.taken (responseTo httpCallback conn.dispatched req).appended)
  dispatched_eq : next.dispatched = conn.dispatched ++ [req]
  connected_iff : next.link.state = .kConnected ↔
    conn.link.state = .kConnected ∧
      ¬ (responseTo httpCallback conn.dispatched req).closeConnection = true

theorem rcvRequest_answers (quiet : owner.Quiet)
    (readsBack : ReadsBack httpCallback) (steady : conn.link.Steady)
    {req : HttpRequest} {next : HttpConnection}
    (answered : rcvRequest owner httpCallback conn req = .ok next) :
    conn.link.Kept next.link ∧ Answers httpCallback conn req next := by
  let response := responseTo httpCallback conn.dispatched req
  obtain ⟨buf, appended, sends⟩ := bind_eq_ok answered
  have small : ∀ piece ∈ response.pieces, piece.length < 2 ^ 63 := by
    intro piece member
    have short := readsBack.pieces_short conn.dispatched req piece member
    omega
  have content : buf.content = response.appended :=
    (HttpResponse.appendToBuffer_returned small appended).2
  obtain ⟨sent, rest, result, flow⟩ := steady.sendBuffer quiet buf
  obtain ⟨again, others, resultAgain, takes⟩ :=
    steady.sendBuffer_takes quiet buf
  obtain ⟨rfl, _⟩ := Prod.mk.inj (Except.ok.inj (result.symm.trans resultAgain))
  rw [result, ok_bind] at sends
  obtain rfl := Except.ok.inj sends
  rw [content] at flow
  have closing : sent.Flow (shutdownIf response.closeConnection sent) [] := by
    cases response.closeConnection with
    | true => exact flow.steady.shutdown
    | false => exact flow.steady.refl_flow
  have whole := flow.trans closing
  rw [List.append_nil] at whole
  refine ⟨⟨whole.steady, whole.inputBuffer_eq, whole.context_eq⟩,
    .of_flow whole, rfl, ?_⟩
  show (shutdownIf response.closeConnection sent).state = _ ↔
    _ ∧ ¬ response.closeConnection = true
  rw [← takes.state_eq]
  cases response.closeConnection with
  | true => simp [state_shutdownIf_true sent]
  | false => simp [state_shutdownIf_false sent]

/-- What a read does to the sending side, unless it refuses its input. -/
inductive Turns (httpCallback : HttpCallback) (conn next : HttpConnection) :
    Verdict → HttpContext → Prop where
  | waits {final : HttpContext} (sends : Sends conn.link next.link [])
      (dispatched : next.dispatched = conn.dispatched)
      (state : next.link.state = conn.link.state) :
      Turns httpCallback conn next .incomplete final
  | refuses {final : HttpContext} :
      Turns httpCallback conn next .refused final
  | answers {final : HttpContext}
      (answers : Answers httpCallback conn final.request next) :
      Turns httpCallback conn next .complete final

theorem Serving.receive_turns (quiet : owner.Quiet)
    (readsBack : ReadsBack httpCallback) (serving : Serving conn context)
    (ready : context.Ready) {chunk : Chunk} {next : HttpConnection}
    (result : receive owner httpCallback conn chunk = .ok next) :
    ∃ verdict final,
      Parses context.timeless (input conn ++ chunk.bytes) verdict
        final.timeless (input next) ∧
      Turns httpCallback conn next verdict final := by
  obtain ⟨filled, read, becomes⟩ := serving.input_sound.readFd chunk.bytes
  obtain ⟨verdict, final, rest, parsed, soundRest, parses⟩ :=
    context.parseRequest_parses ready becomes.sound chunk.receiveTime
  rw [becomes.content_eq] at parses
  let link : LinkedSocket HttpContext :=
    { conn.link with inputBuffer := rest, context := some final }
  have steady : link.Steady := serving.steady.of_eq rfl rfl
  have gotAll : final.gotAll = (verdict == .complete) := parses.gotAll_eq
  cases verdict with
  | incomplete =>
      obtain ⟨received, _⟩ := receive_parsed read serving.context_eq
        parsed rfl
      rw [received, dispatchIf, gotAll] at result
      obtain rfl := Except.ok.inj result
      exact ⟨.incomplete, final, parses,
        .waits ⟨List.prefix_refl _, fun _ => (List.append_nil _).symm⟩
          rfl rfl⟩
  | refused =>
      obtain ⟨sent, refused, takes⟩ := refuse_takes quiet steady
      have kept := takes.kept.trans takes.kept.steady.shutdown.kept
      obtain ⟨received, _⟩ := receive_parsed read serving.context_eq
        parsed refused
      rw [received, dispatchIf, gotAll] at result
      obtain rfl := Except.ok.inj result
      have left : input { conn with link := sent.shutdown } = rest.content :=
        congrArg Buffer.content kept.inputBuffer_eq
      exact ⟨.refused, final, left ▸ parses, .refuses⟩
  | complete =>
      obtain ⟨received, _⟩ := receive_parsed read serving.context_eq
        parsed rfl
      have got : final.gotAll = true := gotAll
      rw [received, dispatchIf, if_pos got] at result
      obtain ⟨other, answered, resets⟩ := bind_eq_ok result
      obtain rfl := Except.ok.inj resets
      have answering : link.Kept other.link ∧
          Answers httpCallback { conn with link } final.request other :=
        rcvRequest_answers quiet readsBack steady answered
      obtain ⟨kept, answers⟩ := answering
      let reset : HttpConnection :=
        { other with link := other.link.setContext (some final.reset) }
      have left : input reset = rest.content :=
        congrArg Buffer.content kept.inputBuffer_eq
      exact ⟨.complete, final, left ▸ parses,
        .answers ⟨⟨answers.sends.trace_prefix, answers.sends.outgoing_eq⟩,
          answers.dispatched_eq, answers.connected_iff⟩⟩

/-- What has gone out on a connection is the conversation about the requests
dispatched. -/
structure Converses (httpCallback : HttpCallback) (conn : HttpConnection) :
    Prop where
  outgoing_eq : conn.link.Healthy → conn.link.outgoing =
    (conversation httpCallback [] conn.dispatched).flatMap
      HttpResponse.appended
  connected_iff : conn.link.state = .kConnected ↔
    ¬ Closing httpCallback conn.dispatched

theorem Sends.healthy {before after : LinkedSocket HttpContext}
    {data : List Byte} (sends : Sends before after data)
    (healthy : after.Healthy) : before.Healthy := by
  intro event member
  exact healthy event (sends.trace_prefix.subset member)

theorem Converses.idle {next : HttpConnection}
    (converses : Converses httpCallback conn)
    (sends : Sends conn.link next.link [])
    (dispatched : next.dispatched = conn.dispatched)
    (state : next.link.state = conn.link.state) :
    Converses httpCallback next := by
  constructor
  · intro healthy
    rw [sends.outgoing_eq healthy, List.append_nil, dispatched]
    exact converses.outgoing_eq (sends.healthy healthy)
  · rw [state, dispatched]
    exact converses.connected_iff

theorem Converses.answers {next : HttpConnection} {req : HttpRequest}
    (converses : Converses httpCallback conn)
    (answers : Answers httpCallback conn req next) :
    Converses httpCallback next := by
  constructor
  · intro healthy
    have before := converses.outgoing_eq (answers.sends.healthy healthy)
    rw [answers.sends.outgoing_eq healthy, before, answers.dispatched_eq]
    by_cases closing : Closing httpCallback conn.dispatched
    · have shut : conn.link.state ≠ .kConnected :=
        fun connected => converses.connected_iff.mp connected closing
      rw [conversation_concat_closing not_closing_nil closing,
        LinkedSocket.taken, if_neg shut, List.append_nil]
    · rw [conversation_concat closing, LinkedSocket.taken,
        if_pos (converses.connected_iff.mpr closing)]
      simp
  · rw [answers.connected_iff, answers.dispatched_eq, closing_concat, not_or,
      converses.connected_iff]

theorem not_refused {texts : List RequestText} {bytes left : List Byte}
    {final : HttpContext} (front : bytes <+: stream texts) :
    ¬ Parses .new bytes .refused final left := by
  intro refused
  by_cases none : arrived texts bytes.length = []
  · cases incomplete_of_arrived_nil front none refused
  · obtain ⟨text, others, rfl, fits⟩ := exists_of_arrived none
    obtain ⟨rest, split⟩ : text.render <+: bytes :=
      List.prefix_of_prefix_length_le (List.prefix_append _ (stream others))
        front fits
    have whole := text.parses rest
    rw [split] at whole
    cases (refused.unique whole).1

/-- A connection that has followed a stream and has answered it. -/
def Serves (httpCallback : HttpCallback) (texts : List RequestText)
    (received : List Byte) (conn : HttpConnection) : Prop :=
  (∃ done todo pending, Following texts received conn done todo pending) ∧
    Converses httpCallback conn

theorem Serves.read (quiet : owner.Quiet)
    (readsBack : ReadsBack httpCallback) {texts : List RequestText} {received : List Byte} {next : HttpConnection} {chunk : Chunk}
    (serves : Serves httpCallback texts received conn)
    (front : received ++ chunk.bytes <+: stream texts)
    (one : (arrived texts (received ++ chunk.bytes).length).length ≤
      (arrived texts received.length).length + 1)
    (stepped : receive owner httpCallback conn chunk = .ok next) :
    Serves httpCallback texts (received ++ chunk.bytes) next := by
  obtain ⟨⟨done, todo, pending, following⟩, converses⟩ := serves
  rw [following.arrived_eq] at one
  refine ⟨following.receive quiet.calm front one stepped, ?_⟩
  obtain ⟨context, serving, ready, resumes⟩ := following.alive
  obtain ⟨verdict, final, parses, turns⟩ :=
    serving.receive_turns quiet readsBack ready stepped
  cases turns with
  | waits sends dispatched state =>
      exact converses.idle sends dispatched state
  | answers answers => exact converses.answers answers
  | refuses =>
      have fresh := resumes _ _ _ _ parses
      have ahead : pending ++ chunk.bytes <+: stream todo := by
        rw [following.texts_eq, following.received_eq, stream_append,
          List.append_assoc] at front
        exact (List.prefix_append_right_inj _).mp front
      exact absurd fresh (not_refused ahead)

theorem Serves.writable (quiet : owner.Quiet) {texts : List RequestText}
    {received : List Byte} {next : HttpConnection}
    (serves : Serves httpCallback texts received conn)
    (stepped : connectionStep owner httpCallback conn .writable = .ok next) :
    Serves httpCallback texts received next := by
  obtain ⟨⟨done, todo, pending, following⟩, converses⟩ := serves
  obtain ⟨context, serving, ready, resumes⟩ := following.alive
  obtain ⟨after, result, flow⟩ := serving.steady.handleWrite quiet
  obtain ⟨again, resultAgain, takes⟩ :=
    serving.steady.handleWrite_takes quiet
  cases result.symm.trans resultAgain
  have written : connectionStep owner httpCallback conn .writable =
      .ok { conn with link := after } := by
    simp only [connectionStep, result]
    rfl
  cases stepped.symm.trans written
  obtain ⟨other, moved, servingNext, same⟩ :=
    serving.writable httpCallback quiet.calm
  cases stepped.symm.trans moved
  refine ⟨⟨done, todo, pending, following.texts_eq, following.received_eq,
    following.none_arrived, following.dispatched_eq,
    context, servingNext, ready, same ▸ resumes⟩, ?_⟩
  exact converses.idle (.of_flow flow) rfl takes.state_eq

section Runs

variable {fd : Int} {highWaterMark : Nat} {writes : List WriteResult}
  {actions : List ConnectionAction} {texts : List RequestText}

theorem newConnection_serves (httpCallback : HttpCallback) (fd : Int)
    (highWaterMark : Nat) (writes : List WriteResult)
    (texts : List RequestText) :
    Serves httpCallback texts [] (newConnection fd highWaterMark writes) := by
  have nothing : arrived texts 0 = [] := by
    cases texts with
    | nil => rfl
    | cons text texts =>
        have positive : ¬ text.render.length ≤ 0 := by
          simp [render, requestLine]
        exact if_neg positive
  refine ⟨⟨[], texts, [], rfl, rfl, nothing, rfl,
    newConnection_alive fd highWaterMark writes⟩, fun _ => rfl, ?_⟩
  exact ⟨fun _ => not_closing_nil, fun _ => rfl⟩

theorem delivered_concat (actions : List ConnectionAction)
    (action : ConnectionAction) :
    delivered (actions ++ [action]) = delivered actions ++ delivered [action] :=
  List.filterMap_append

theorem serves_of_run (quiet : owner.Quiet)
    (readsBack : ReadsBack httpCallback)
    (runs : (connectionMachine owner httpCallback).Run
      (newConnection fd highWaterMark writes) actions conn)
    (front : Chunk.joined (delivered actions) <+: stream texts)
    (one : OneAtATime texts (delivered actions)) :
    Serves httpCallback texts (Chunk.joined (delivered actions)) conn := by
  induction runs with
  | refl => exact newConnection_serves httpCallback fd highWaterMark writes texts
  | @step actions conn next action before enabled stepped induction =>
      rw [delivered_concat] at front one ⊢
      cases action with
      | writable =>
          have same : delivered actions ++ delivered [.writable] =
              delivered actions := List.append_nil _
          rw [same] at front one ⊢
          exact (induction front one).writable quiet stepped
      | read chunk =>
          have more : delivered actions ++ delivered [.read chunk] =
              delivered actions ++ [chunk] := rfl
          rw [more] at front one ⊢
          have last := one (delivered actions) chunk [] rfl
          have earlier : OneAtATime texts (delivered actions) := by
            intro first chosen later split
            refine one first chosen (later ++ [chunk]) ?_
            simp [split]
          rw [Chunk.joined_concat] at front last ⊢
          have serves := induction ((List.prefix_append _ _).trans front)
            earlier
          exact serves.read quiet readsBack front last stepped

/-- What a client reads back.  The requests of a stream come in any chunks that
complete one request at most, write events come at any time and move any number
of bytes, and no direct write meets a broken connection: then the bytes accepted
by the kernel and the queued ones decode to the replies to the requests that
have arrived, the first reply that closes the connection being the last. -/
theorem run_converses (quiet : owner.Quiet) (timeless : Timeless httpCallback)
    (readsBack : ReadsBack httpCallback)
    (runs : (connectionMachine owner httpCallback).Run
      (newConnection fd highWaterMark writes) actions conn)
    (front : Chunk.joined (delivered actions) <+: stream texts)
    (one : OneAtATime texts (delivered actions))
    (healthy : conn.link.Healthy) :
    decodeFrames Reply.read
        (conn.link.kernel.accepted ++ conn.link.outputBuffer.content) =
      some ((conversation httpCallback []
        ((arrived texts (Chunk.joined (delivered actions)).length).map
          request)).map HttpResponse.reply) := by
  obtain ⟨⟨done, todo, pending, following⟩, converses⟩ :=
    serves_of_run quiet readsBack runs front one
  have outgoing : conn.link.kernel.accepted ++
      conn.link.outputBuffer.content = _ := converses.outgoing_eq healthy
  rw [outgoing, conversation_timeless timeless, following.dispatched_eq,
    following.arrived_eq]
  exact readsBack.decode_conversation _ _

end Runs

end Links

end HttpServer

end Muduo
