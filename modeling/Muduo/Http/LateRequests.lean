import Muduo.Http.Answers

/-!
# Requests after the close

A link keeps reading after `shutdown`, and the parser keeps completing requests.
Such a late request goes to the callback, but its response finds the link no
longer connected.  A response is lost exactly if a request completes after one
whose response closes the connection.
-/

namespace Muduo

open Library

namespace Parses

/-- A refusal leaves all bytes, behind a first line that is not a request
line. -/
theorem refused_line {context final : HttpContext} {bytes left : List Byte}
    (parses : Parses context bytes .refused final left) :
    left = bytes ∧ final.state = .kExpectRequestLine ∧
      ∃ line rest, cutLine bytes = some (line, rest) ∧
        ¬ AcceptedLine line := by
  cases parses with
  | @refused _ _ _ line rest cut refuses =>
      refine ⟨rfl, rfl, line, rest, cut, ?_⟩
      intro inGrammar
      cases (HttpRequest.accepted_iff refuses).mpr inGrammar
  | requestLine _ _ others => exact (not_refused_headers others).elim
  | header _ _ others => exact (not_refused_headers others).elim

theorem not_complete_of_line {context final : HttpContext}
    {bytes left line rest : List Byte}
    (expects : context.state = .kExpectRequestLine)
    (cut : cutLine bytes = some (line, rest))
    (outside : ¬ AcceptedLine line) :
    ¬ Parses context bytes .complete final left := by
  intro parses
  cases parses with
  | requestLine again accepts _ =>
      cases cut.symm.trans again
      exact outside ((HttpRequest.accepted_iff accepts).mp rfl)
  | header _ _ _ => cases expects
  | complete _ _ => cases expects

end Parses

namespace HttpServer

variable {owner : LinkOwner HttpContext} {httpCallback : HttpCallback}
variable {conn next : HttpConnection} {context : HttpContext}

/-- A read by a context that takes its bytes as a complete request. -/
def Completes (conn : HttpConnection) (chunk : Chunk) : Prop :=
  ∃ context final left, conn.link.context = some context ∧
    Parses context.timeless (input conn ++ chunk.bytes) .complete final left

/-- The response to one of the requests closes the connection. -/
def Closing (httpCallback : HttpCallback) (dispatched : List HttpRequest) :
    Prop :=
  ∃ before req after, dispatched = before ++ req :: after ∧
    (responseTo httpCallback before req).closeConnection = true

/-- A request that completes after the response to another one has closed the
connection. -/
def LateRequest (httpCallback : HttpCallback) (conn : HttpConnection)
    (action : ConnectionAction) : Prop :=
  ∃ chunk, action = .read chunk ∧ Completes conn chunk ∧
    Closing httpCallback conn.dispatched

/-- A call of `rcvRequest` whose `send` does not find the link connected. -/
def LosesResponse (owner : LinkOwner HttpContext) (conn : HttpConnection)
    (action : ConnectionAction) : Prop :=
  ∃ chunk link req, action = .read chunk ∧
    rcvRequestCall owner conn chunk = .ok (some (link, req)) ∧
    link.state ≠ .kConnected

/-- The requests of a step whose responses the link queues or sends. -/
def answeredBy (owner : LinkOwner HttpContext) (conn : HttpConnection) :
    ConnectionAction → List HttpRequest
  | .read chunk =>
      match rcvRequestCall owner conn chunk with
      | .ok (some (link, req)) => if link.connected then [req] else []
      | _ => []
  | .writable => []

theorem not_closing_nil : ¬ Closing httpCallback [] := by
  rintro ⟨before, req, after, split, _⟩
  simp at split

theorem closing_concat {dispatched : List HttpRequest} {req : HttpRequest} :
    Closing httpCallback (dispatched ++ [req]) ↔
      Closing httpCallback dispatched ∨
        (responseTo httpCallback dispatched req).closeConnection = true := by
  constructor
  · rintro ⟨before, closer, after, split, closes⟩
    rcases List.eq_nil_or_concat after with rfl | ⟨front, last, rfl⟩
    · obtain ⟨rfl, same⟩ := List.append_inj' split rfl
      obtain rfl := List.singleton_inj.mp same
      exact .inr closes
    · rw [List.concat_eq_append, ← List.cons_append, ← List.append_assoc]
        at split
      obtain ⟨same, _⟩ := List.append_inj' split rfl
      exact .inl ⟨before, closer, front, same, closes⟩
  · rintro (⟨before, closer, after, rfl, closes⟩ | closes)
    · exact ⟨before, closer, after ++ [req], by simp, closes⟩
    · exact ⟨dispatched, req, [], rfl, closes⟩

theorem receive_parsed {chunk : Chunk} {filled rest : Buffer} {ok : Bool}
    {final : HttpContext} {link : LinkedSocket HttpContext}
    (read : conn.link.inputBuffer.readFd (.ok chunk.bytes) = .ok filled)
    (here : conn.link.context = some context)
    (parsed : context.parseRequest filled chunk.receiveTime =
      .ok (ok, final, rest))
    (refused : refuseUnless owner ok
      { conn.link with inputBuffer := rest, context := some final } =
        .ok link) :
    receive owner httpCallback conn chunk =
        dispatchIf owner httpCallback { conn with link } final ∧
      rcvRequestCall owner conn chunk =
        .ok (if final.gotAll then some (link, final.request) else none) := by
  constructor
  · simp only [receive, read, ok_bind, rcvMessage, here, parsed, refused]
  · simp only [rcvRequestCall, read, ok_bind, here, parsed, refused]
    rfl

/-- What a read does to the state of the link and whom it answers. -/
inductive ReadWay (owner : LinkOwner HttpContext)
    (httpCallback : HttpCallback) (conn : HttpConnection) (chunk : Chunk)
    (next : HttpConnection) : Verdict → HttpContext → Prop where
  | waits {final : HttpContext} :
      rcvRequestCall owner conn chunk = .ok none →
      next.dispatched = conn.dispatched →
      next.link.state = conn.link.state →
      ReadWay owner httpCallback conn chunk next .incomplete final
  | refuses {final : HttpContext} :
      rcvRequestCall owner conn chunk = .ok none →
      next.dispatched = conn.dispatched →
      ReadWay owner httpCallback conn chunk next .refused final
  | answers {final : HttpContext} {link : LinkedSocket HttpContext} :
      rcvRequestCall owner conn chunk = .ok (some (link, final.request)) →
      link.state = conn.link.state →
      next.dispatched = conn.dispatched ++ [final.request] →
      ((responseTo httpCallback conn.dispatched
        final.request).closeConnection = true →
          next.link.state ≠ .kConnected) →
      ((responseTo httpCallback conn.dispatched
        final.request).closeConnection = false →
          next.link.state = conn.link.state) →
      ReadWay owner httpCallback conn chunk next .complete final

theorem Serving.receive_way (quiet : owner.Quiet)
    (serving : Serving conn context) (ready : context.Ready) {chunk : Chunk}
    (result : receive owner httpCallback conn chunk = .ok next) :
    ∃ verdict final,
      Parses context.timeless (input conn ++ chunk.bytes) verdict
        final.timeless (input next) ∧
      Serving next (contextAfter verdict final) ∧
      ReadWay owner httpCallback conn chunk next verdict final := by
  obtain ⟨filled, read, becomes⟩ := serving.input_sound.readFd chunk.bytes
  obtain ⟨verdict, final, rest, parsed, soundRest, parses⟩ :=
    context.parseRequest_parses ready becomes.sound chunk.receiveTime
  rw [becomes.content_eq] at parses
  let link : LinkedSocket HttpContext :=
    { conn.link with inputBuffer := rest, context := some final }
  have steady : link.Steady := serving.steady.of_eq rfl rfl
  have gotAll : final.gotAll = (verdict == .complete) := parses.gotAll_eq
  cases verdict with
  | incomplete =>
      obtain ⟨received, called⟩ := receive_parsed read serving.context_eq
        parsed rfl
      rw [gotAll] at called
      rw [received, dispatchIf, gotAll] at result
      obtain rfl := Except.ok.inj result
      exact ⟨.incomplete, final, parses, ⟨steady, soundRest, rfl⟩,
        .waits called rfl rfl⟩
  | refused =>
      obtain ⟨sent, refused, takes⟩ := refuse_takes quiet steady
      have kept := takes.kept.trans takes.kept.steady.shutdown.kept
      obtain ⟨received, called⟩ := receive_parsed read serving.context_eq
        parsed refused
      rw [gotAll] at called
      rw [received, dispatchIf, gotAll] at result
      obtain rfl := Except.ok.inj result
      have left : input { conn with link := sent.shutdown } = rest.content :=
        congrArg Buffer.content kept.inputBuffer_eq
      have sound : sent.shutdown.inputBuffer.Sound :=
        kept.inputBuffer_eq ▸ soundRest
      exact ⟨.refused, final, left ▸ parses,
        ⟨kept.steady, sound, kept.context_eq⟩, .refuses called rfl⟩
  | complete =>
      obtain ⟨received, called⟩ := receive_parsed read serving.context_eq
        parsed rfl
      rw [gotAll] at called
      have got : final.gotAll = true := gotAll
      rw [received, dispatchIf, if_pos got] at result
      obtain ⟨other, answered, resets⟩ := bind_eq_ok result
      obtain rfl := Except.ok.inj resets
      let response := responseTo httpCallback conn.dispatched final.request
      have answers : ∃ buf sent,
          response.appendToBuffer (.new kInitialSize) = .ok buf ∧
          other = ⟨shutdownIf response.closeConnection sent,
            conn.dispatched ++ [final.request]⟩ ∧
          link.Takes sent
            (if link.accepts buf.content then buf.content else []) :=
        rcvRequest_takes quiet steady rfl answered
      obtain ⟨buf, sent, _, rfl, takes⟩ := answers
      have kept := takes.kept.trans
        (shutdownIf_kept takes.kept.steady response.closeConnection)
      let closed := shutdownIf response.closeConnection sent
      have left : closed.inputBuffer.content = rest.content :=
        congrArg Buffer.content kept.inputBuffer_eq
      have sound : closed.inputBuffer.Sound :=
        kept.inputBuffer_eq ▸ soundRest
      refine ⟨.complete, final, ?_, ⟨kept.steady.of_eq rfl rfl, sound, rfl⟩,
        .answers called rfl rfl ?_ ?_⟩
      · rw [← left] at parses
        exact parses
      · intro closes
        have shut : closed.state ≠ .kConnected := by
          simp only [closed, response, closes]
          exact state_shutdownIf_true sent
        exact shut
      · intro stays
        have same : closed.state = conn.link.state := by
          simp only [closed, response, stays]
          exact takes.state_eq
        exact same

/-- A first line that the parser has refused and not consumed. -/
structure Blocked (conn : HttpConnection) (context : HttpContext)
    (line rest : List Byte) : Prop where
  serving : Serving conn context
  expects : context.state = .kExpectRequestLine
  cut : cutLine (input conn) = some (line, rest)
  outside : ¬ AcceptedLine line

theorem Blocked.not_completes {line rest : List Byte}
    (blocked : Blocked conn context line rest) (chunk : Chunk) :
    ¬ Completes conn chunk := by
  rintro ⟨other, final, left, here, parses⟩
  cases blocked.serving.context_eq.symm.trans here
  have expects : context.timeless.state = .kExpectRequestLine :=
    blocked.expects
  exact Parses.not_complete_of_line expects
    (cutLine_append chunk.bytes blocked.cut) blocked.outside parses

/-- A blocked connection dispatches nothing, and stays blocked. -/
theorem Blocked.read (quiet : owner.Quiet) {line rest : List Byte}
    (blocked : Blocked conn context line rest) {chunk : Chunk}
    (received : receive owner httpCallback conn chunk = .ok next) :
    rcvRequestCall owner conn chunk = .ok none ∧
      next.dispatched = conn.dispatched ∧
      ∃ context line rest, Blocked next context line rest := by
  obtain ⟨serving, expects, cut, outside⟩ := blocked
  obtain ⟨filled, read, becomes⟩ := serving.input_sound.readFd chunk.bytes
  have grown : cutLine filled.content = some (line, rest ++ chunk.bytes) := by
    rw [becomes.content_eq]
    exact cutLine_append chunk.bytes cut
  have whole := received
  obtain ⟨again, readAgain, whole⟩ := bind_eq_ok whole
  cases read.symm.trans readAgain
  simp only [rcvMessage, serving.context_eq] at whole
  obtain ⟨⟨ok, final, left⟩, parsed, _⟩ := bind_eq_ok whole
  obtain ⟨state, request⟩ := context
  obtain rfl : state = .kExpectRequestLine := expects
  obtain ⟨refuses, kept⟩ :=
    HttpContext.parseRequest_judges becomes.sound parsed
  have refused := refuses.mpr ⟨line, _, grown, outside⟩
  obtain ⟨rfl, stays⟩ := kept refused
  subst refused
  let link : LinkedSocket HttpContext :=
    { conn.link with inputBuffer := left, context := some final }
  have steady : link.Steady := serving.steady.of_eq rfl rfl
  obtain ⟨sent, result, takes⟩ := refuse_takes quiet steady
  have keeps := takes.kept.trans takes.kept.steady.shutdown.kept
  have goesOn : final.gotAll = false := by simp [HttpContext.gotAll, stays]
  obtain ⟨receives, called⟩ :=
    receive_parsed read serving.context_eq parsed result
  rw [goesOn] at called
  rw [receives, dispatchIf, goesOn] at received
  cases received
  refine ⟨called, rfl, final, line, rest ++ chunk.bytes, ?_, stays, ?_,
    outside⟩
  · exact ⟨keeps.steady, keeps.inputBuffer_eq ▸ becomes.sound,
      keeps.context_eq⟩
  · have same : input { conn with link := sent.shutdown } = left.content :=
      congrArg Buffer.content keeps.inputBuffer_eq
    rw [same]
    exact grown

theorem Serving.completes_iff (serving : Serving conn context)
    {chunk : Chunk} {verdict : Verdict} {final : HttpContext}
    {left : List Byte}
    (parses : Parses context.timeless (input conn ++ chunk.bytes) verdict
      final left) :
    Completes conn chunk ↔ verdict = .complete := by
  constructor
  · rintro ⟨other, _, _, here, completes⟩
    cases serving.context_eq.symm.trans here
    exact (parses.unique completes).1
  · rintro rfl
    exact ⟨context, final, left, serving.context_eq, parses⟩

/-- How a connection stands: its context may parse and its link is connected
unless a response has closed it, or it is blocked. -/
inductive Phase (httpCallback : HttpCallback) (conn : HttpConnection) :
    Prop where
  | ready {context : HttpContext} :
      Serving conn context →
      context.Ready →
      (conn.link.state = .kConnected ↔
        ¬ Closing httpCallback conn.dispatched) →
      Phase httpCallback conn
  | blocked {context : HttpContext} {line rest : List Byte} :
      Blocked conn context line rest →
      Phase httpCallback conn

/-- What a step dispatches is answered, or the step is a late request. -/
inductive Outcome (owner : LinkOwner HttpContext)
    (httpCallback : HttpCallback) (conn : HttpConnection)
    (action : ConnectionAction) (next : HttpConnection) : Prop where
  | answered {invoked : List HttpRequest} :
      next.dispatched = conn.dispatched ++ invoked →
      answeredBy owner conn action = invoked →
      ¬ LosesResponse owner conn action →
      ¬ LateRequest httpCallback conn action →
      Outcome owner httpCallback conn action next
  | lost {req : HttpRequest} :
      next.dispatched = conn.dispatched ++ [req] →
      answeredBy owner conn action = [] →
      LosesResponse owner conn action →
      LateRequest httpCallback conn action →
      Outcome owner httpCallback conn action next

theorem Outcome.of_no_call {chunk : Chunk}
    (called : rcvRequestCall owner conn chunk = .ok none)
    (dispatched : next.dispatched = conn.dispatched)
    (waits : ¬ Completes conn chunk) :
    Outcome owner httpCallback conn (.read chunk) next := by
  apply Outcome.answered (dispatched.trans (List.append_nil _).symm)
  · simp only [answeredBy, called]
  · rintro ⟨other, link, req, same, calls, _⟩
    cases same
    cases called.symm.trans calls
  · rintro ⟨other, same, completes, _⟩
    cases same
    exact waits completes

theorem Phase.read (quiet : owner.Quiet) (phase : Phase httpCallback conn)
    {chunk : Chunk}
    (received : receive owner httpCallback conn chunk = .ok next) :
    Phase httpCallback next ∧
      Outcome owner httpCallback conn (.read chunk) next := by
  cases phase with
  | blocked blocked =>
      obtain ⟨called, dispatched, context, line, rest, after⟩ :=
        blocked.read quiet received
      exact ⟨.blocked after,
        .of_no_call called dispatched (blocked.not_completes chunk)⟩
  | @ready context serving ready connected =>
      obtain ⟨verdict, final, parses, servingNext, way⟩ :=
        serving.receive_way quiet ready received
      have completes := serving.completes_iff parses
      cases way with
      | waits called dispatched state =>
          have readyFinal : final.Ready := HttpContext.timeless_ready.mp
            (parses.ready_of_incomplete
              (HttpContext.timeless_ready.mpr ready))
          refine ⟨.ready servingNext readyFinal ?_,
            .of_no_call called dispatched (by simp [completes])⟩
          rw [state, dispatched]
          exact connected
      | refuses called dispatched =>
          obtain ⟨left, expects, line, rest, cut, outside⟩ :=
            parses.refused_line
          exact ⟨.blocked ⟨servingNext, expects, left ▸ cut, outside⟩,
            .of_no_call called dispatched (by simp [completes])⟩
      | @answers _ link called state dispatched closes stays =>
          have complete : Completes conn chunk := completes.mpr rfl
          constructor
          · refine .ready servingNext HttpContext.new_ready ?_
            rw [dispatched, closing_concat, not_or, ← connected]
            cases close : (responseTo httpCallback conn.dispatched
                final.request).closeConnection with
            | true => simp [closes close]
            | false => simp [stays close]
          · by_cases closed : Closing httpCallback conn.dispatched
            · have shut : link.state ≠ .kConnected := by
                rw [state]
                intro still
                exact connected.mp still closed
              apply Outcome.lost dispatched
              · simp [answeredBy, called, LinkedSocket.connected, shut]
              · exact ⟨chunk, link, final.request, rfl, called, shut⟩
              · exact ⟨chunk, rfl, complete, closed⟩
            · have found : link.state = .kConnected :=
                state.trans (connected.mpr closed)
              apply Outcome.answered dispatched
              · simp [answeredBy, called, LinkedSocket.connected, found]
              · rintro ⟨other, again, req, same, calls, shut⟩
                cases same
                cases called.symm.trans calls
                exact shut found
              · rintro ⟨other, same, _, after⟩
                cases same
                exact closed after

theorem Phase.writable (quiet : owner.Quiet)
    (phase : Phase httpCallback conn)
    (stepped : connectionStep owner httpCallback conn .writable = .ok next) :
    Phase httpCallback next ∧
      Outcome owner httpCallback conn .writable next := by
  obtain ⟨link, written, result⟩ := bind_eq_ok stepped
  cases result
  have idle : Outcome owner httpCallback conn .writable
      { conn with link } := by
    have same : ({ conn with link } : HttpConnection).dispatched =
        conn.dispatched ++ [] := (List.append_nil _).symm
    apply Outcome.answered same
    · rfl
    · rintro ⟨_, _, _, same, _⟩
      cases same
    · rintro ⟨_, same, _⟩
      cases same
  refine ⟨?_, idle⟩
  cases phase with
  | blocked blocked =>
      obtain ⟨serving, expects, cut, outside⟩ := blocked
      obtain ⟨after, result, takes⟩ :=
        serving.steady.handleWrite_takes quiet
      cases written.symm.trans result
      have same : input { conn with link } = input conn :=
        congrArg Buffer.content takes.kept.inputBuffer_eq
      exact .blocked ⟨⟨takes.kept.steady, takes.kept.inputBuffer_eq ▸
        serving.input_sound, takes.kept.context_eq.trans serving.context_eq⟩,
        expects, same ▸ cut, outside⟩
  | @ready context serving ready connected =>
      obtain ⟨after, result, takes⟩ :=
        serving.steady.handleWrite_takes quiet
      cases written.symm.trans result
      refine .ready ⟨takes.kept.steady, takes.kept.inputBuffer_eq ▸
        serving.input_sound, takes.kept.context_eq.trans serving.context_eq⟩
        ready ?_
      rw [takes.state_eq]
      exact connected

theorem Phase.step (quiet : owner.Quiet) (phase : Phase httpCallback conn)
    {action : ConnectionAction}
    (stepped : connectionStep owner httpCallback conn action = .ok next) :
    Phase httpCallback next ∧
      Outcome owner httpCallback conn action next := by
  cases action with
  | read chunk => exact phase.read quiet stepped
  | writable => exact phase.writable quiet stepped

theorem newConnection_phase (httpCallback : HttpCallback) (fd : Int)
    (highWaterMark : Nat) (writes : List WriteResult) :
    Phase httpCallback (newConnection fd highWaterMark writes) :=
  .ready (newConnection_serving fd highWaterMark writes)
    HttpContext.new_ready ⟨fun _ => not_closing_nil, fun _ => rfl⟩

section Runs

variable {fd : Int} {highWaterMark : Nat} {writes : List WriteResult}
variable {actions : List ConnectionAction}

theorem phase_of_run (quiet : owner.Quiet)
    (runs : (connectionMachine owner httpCallback).Run
      (newConnection fd highWaterMark writes) actions conn) :
    Phase httpCallback conn := by
  apply runs.state_invariant (Phase httpCallback)
  · exact newConnection_phase httpCallback fd highWaterMark writes
  · intro conn action next phase _ stepped
    exact (phase.step quiet stepped).1

theorem loses_iff_of_run (quiet : owner.Quiet)
    (runs : (connectionMachine owner httpCallback).Run
      (newConnection fd highWaterMark writes) actions conn) :
    (connectionMachine owner httpCallback).Happens (LosesResponse owner)
        (newConnection fd highWaterMark writes) actions ↔
      (connectionMachine owner httpCallback).Happens
        (LateRequest httpCallback) (newConnection fd highWaterMark writes)
        actions := by
  induction runs with
  | refl => simp [Machine.not_happens_nil]
  | step before enabled stepped induction =>
      obtain ⟨_, outcome⟩ := (phase_of_run quiet before).step quiet stepped
      rw [before.happens_concat, before.happens_concat, induction]
      cases outcome with
      | answered _ _ kept onTime => simp [kept, onTime]
      | lost _ _ loses late => simp [loses, late]

/-- What is answered is what is dispatched exactly if no request was late; one
response less stays one less. -/
theorem answered_of_run (quiet : owner.Quiet)
    (runs : (connectionMachine owner httpCallback).Run
      (newConnection fd highWaterMark writes) actions conn) :
    ((connectionMachine owner httpCallback).observed (answeredBy owner)
        (newConnection fd highWaterMark writes) actions).length ≤
      conn.dispatched.length ∧
    ((connectionMachine owner httpCallback).observed (answeredBy owner)
        (newConnection fd highWaterMark writes) actions = conn.dispatched ↔
      ¬ (connectionMachine owner httpCallback).Happens
        (LateRequest httpCallback) (newConnection fd highWaterMark writes)
        actions) := by
  induction runs with
  | refl => exact ⟨Nat.le_refl _, ⟨fun _ => Machine.not_happens_nil,
      fun _ => rfl⟩⟩
  | @step actions conn next action before enabled stepped induction =>
      obtain ⟨bound, equal⟩ := induction
      obtain ⟨_, outcome⟩ := (phase_of_run quiet before).step quiet stepped
      rw [before.observed_concat stepped, before.happens_concat]
      cases outcome with
      | answered dispatched answers _ onTime =>
          rw [answers, dispatched, List.append_cancel_right_eq, equal]
          refine ⟨?_, ?_⟩
          · simpa using bound
          · simp [onTime]
      | lost dispatched answers _ late =>
          rw [answers, dispatched, List.append_nil]
          refine ⟨?_, ?_⟩
          · simp only [List.length_append, List.length_singleton]
            omega
          · constructor
            · intro same
              have size := congrArg List.length same
              simp only [List.length_append, List.length_singleton] at size
              omega
            · intro never
              exact (never (.inr late)).elim

/-- In every run of a connection, each call of the callback is followed by a
`send` that finds the link connected if and only if no request completes after
one whose response closes the connection; and exactly then the requests answered
are the requests dispatched, in number and order. -/
theorem responses_kept_iff (quiet : owner.Quiet)
    (runs : (connectionMachine owner httpCallback).Run
      (newConnection fd highWaterMark writes) actions conn) :
    (¬ (connectionMachine owner httpCallback).Happens (LosesResponse owner)
        (newConnection fd highWaterMark writes) actions ↔
      ¬ (connectionMachine owner httpCallback).Happens
        (LateRequest httpCallback) (newConnection fd highWaterMark writes)
        actions) ∧
    ((connectionMachine owner httpCallback).observed (answeredBy owner)
        (newConnection fd highWaterMark writes) actions = conn.dispatched ↔
      ¬ (connectionMachine owner httpCallback).Happens
        (LateRequest httpCallback) (newConnection fd highWaterMark writes)
        actions) :=
  ⟨not_congr (loses_iff_of_run quiet runs), (answered_of_run quiet runs).2⟩

/-- A request that asks for the close, and one more before the peer closes. -/
def lateChunks : List ConnectionAction :=
  [.read ⟨ascii "GET / HTTP/1.0\r\n\r\n", 1⟩,
    .read ⟨ascii "GET /a HTTP/1.1\r\n\r\n", 2⟩]

/-- Both requests go to the callback; one of them is answered. -/
theorem late_request_unanswered :
    ∃ conn, (connectionMachine silentOwner fun _ _ response => response).Run
        (newConnection 5 64 [.accepted 99]) lateChunks conn ∧
      conn.dispatched.length = 2 ∧
      ((connectionMachine silentOwner fun _ _ response => response).observed
        (answeredBy silentOwner) (newConnection 5 64 [.accepted 99])
        lateChunks).length = 1 ∧
      conn.link.kernel.accepted =
        ascii "HTTP/1.1 0 \r\nConnection: close\r\n\r\n" := by
  have found : ((connectionMachine silentOwner
      fun _ _ response => response).execute
      (newConnection 5 64 [.accepted 99]) lateChunks).any
      (fun conn => conn.dispatched.length = 2 ∧
        ((connectionMachine silentOwner fun _ _ response => response).observed
          (answeredBy silentOwner) (newConnection 5 64 [.accepted 99])
          lateChunks).length = 1 ∧
        conn.link.kernel.accepted =
          ascii "HTTP/1.1 0 \r\nConnection: close\r\n\r\n") = true := by
    decide +kernel
  obtain ⟨conn, runs, accepted⟩ := Machine.run_of_execute found
  exact ⟨conn, runs, of_decide_eq_true accepted⟩

/-- Two requests that keep the connection alive, with a partial write. -/
def keptChunks : List ConnectionAction :=
  [.read ⟨ascii "GET / HTTP/1.1\r\n\r\n", 1⟩, .writable,
    .read ⟨ascii "GET /a HTTP/1.1\r\n\r\n", 2⟩]

theorem responses_kept_iff_two :
    ∃ conn, (connectionMachine silentOwner fun _ _ response => response).Run
        (newConnection 5 64 [.accepted 3, .accepted 99]) keptChunks conn ∧
      conn.dispatched.length = 2 ∧
      ¬ (connectionMachine silentOwner fun _ _ response => response).Happens
        (LosesResponse silentOwner)
        (newConnection 5 64 [.accepted 3, .accepted 99]) keptChunks := by
  have found : ((connectionMachine silentOwner
      fun _ _ response => response).execute
      (newConnection 5 64 [.accepted 3, .accepted 99]) keptChunks).any
      (fun conn => conn.dispatched.length = 2 ∧
        (connectionMachine silentOwner fun _ _ response => response).observed
          (answeredBy silentOwner)
          (newConnection 5 64 [.accepted 3, .accepted 99]) keptChunks =
          conn.dispatched) = true := by
    decide +kernel
  obtain ⟨conn, runs, accepted⟩ := Machine.run_of_execute found
  obtain ⟨two, same⟩ := of_decide_eq_true accepted
  obtain ⟨kept, answered⟩ := responses_kept_iff silentOwner_quiet runs
  exact ⟨conn, runs, two, kept.mpr (answered.mp same)⟩

end Runs

end HttpServer

end Muduo
