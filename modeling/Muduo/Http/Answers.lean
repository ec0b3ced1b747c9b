import Muduo.Http.ConnectionRuns
import Muduo.Net.LinkTakes

/-!
# The answers of the server

What `rcvRequest` and the reply to a refused request do to the link, with write
callbacks that stay quiet: each sends its bytes, which the link takes as a whole
or not at all, and half-closes it or leaves its state alone.
-/

namespace Muduo

namespace HttpServer

variable {owner : LinkOwner HttpContext} {httpCallback : HttpCallback}
variable {conn : HttpConnection} {link : LinkedSocket HttpContext}

/-- The response that the callback builds for a request. -/
def responseTo (httpCallback : HttpCallback) (dispatched : List HttpRequest)
    (req : HttpRequest) : HttpResponse :=
  httpCallback dispatched req (.new (closes req))

/-- What a call of `rcvRequest` sends, if it completes. -/
theorem rcvRequest_takes (quiet : owner.Quiet) (steady : conn.link.Steady)
    {req : HttpRequest} {response : HttpResponse}
    (builds : responseTo httpCallback conn.dispatched req = response)
    {next : HttpConnection}
    (answered : rcvRequest owner httpCallback conn req = .ok next) :
    ∃ buf sent, response.appendToBuffer (.new kInitialSize) = .ok buf ∧
      next = ⟨shutdownIf response.closeConnection sent,
        conn.dispatched ++ [req]⟩ ∧
      conn.link.Takes sent
        (if conn.link.accepts buf.content then buf.content else []) := by
  subst builds
  obtain ⟨buf, appended, sends⟩ := bind_eq_ok answered
  obtain ⟨sent, rest, result, takes⟩ := steady.sendBuffer_takes quiet buf
  rw [result, ok_bind] at sends
  obtain rfl := Except.ok.inj sends
  exact ⟨buf, sent, appended, rfl, takes⟩

theorem rcvRequest_of_appended (quiet : owner.Quiet)
    (steady : conn.link.Steady) {req : HttpRequest} {buf : Buffer}
    (appended : (responseTo httpCallback conn.dispatched req).appendToBuffer
      (.new kInitialSize) = .ok buf) :
    ∃ next, rcvRequest owner httpCallback conn req = .ok next := by
  obtain ⟨sent, rest, result, _⟩ := steady.sendBuffer_takes quiet buf
  rw [responseTo] at appended
  simp only [rcvRequest, appended, result, ok_bind]
  exact ⟨_, rfl⟩

theorem refuse_takes (quiet : owner.Quiet) (steady : link.Steady) :
    ∃ sent, refuseUnless owner false link = .ok sent.shutdown ∧
      link.Takes sent
        (if link.accepts badRequest then badRequest else []) := by
  obtain ⟨sent, result, takes⟩ := steady.send_takes quiet badRequest
  refine ⟨sent, ?_, takes⟩
  simp only [refuseUnless, result, ok_bind]
  rfl

theorem state_shutdownIf_true (link : LinkedSocket HttpContext) :
    (shutdownIf true link).state ≠ .kConnected :=
  link.shutdown_not_connected

theorem state_shutdownIf_false (link : LinkedSocket HttpContext) :
    (shutdownIf false link).state = link.state := rfl

theorem outgoing_shutdownIf (close : Bool) (link : LinkedSocket HttpContext) :
    (shutdownIf close link).outgoing = link.outgoing := by
  cases close with
  | true => exact link.outgoing_shutdown
  | false => rfl

/-- The link and the request with which a read calls `rcvRequest`, if it does:
`rcvMessage` up to that call. -/
def rcvRequestCall (owner : LinkOwner HttpContext) (conn : HttpConnection)
    (chunk : Chunk) :
    Checked (Option (LinkedSocket HttpContext × HttpRequest)) := do
  let inputBuffer ← conn.link.inputBuffer.readFd (.ok chunk.bytes)
  match conn.link.context with
  | none => return none
  | some context => do
      let (ok, context, inputBuffer) ←
        context.parseRequest inputBuffer chunk.receiveTime
      let link ← refuseUnless owner ok
        { conn.link with inputBuffer, context := some context }
      return if context.gotAll then some (link, context.request) else none

/-- What a read with a call of `rcvRequest` does is that call, and the reset of
the context. -/
theorem receive_of_call {chunk : Chunk} {req : HttpRequest}
    (called : rcvRequestCall owner conn chunk = .ok (some (link, req))) :
    receive owner httpCallback conn chunk = (do
      let conn ← rcvRequest owner httpCallback { conn with link } req
      return { conn with link := conn.link.setContext (some .new) }) := by
  obtain ⟨inputBuffer, read, called⟩ := bind_eq_ok called
  cases here : conn.link.context with
  | none => simp [here, pure, Except.pure] at called
  | some context =>
      simp only [here] at called
      obtain ⟨⟨ok, final, rest⟩, parsed, called⟩ := bind_eq_ok called
      obtain ⟨refused, refusing, called⟩ := bind_eq_ok called
      by_cases got : final.gotAll = true
      · rw [if_pos got] at called
        cases called
        simp only [receive, read, ok_bind, rcvMessage, here, parsed, refusing,
          dispatchIf, if_pos got]
        rfl
      · rw [if_neg got] at called
        cases called

theorem dispatched_of_no_call {chunk : Chunk} {next : HttpConnection}
    (called : rcvRequestCall owner conn chunk = .ok none)
    (received : receive owner httpCallback conn chunk = .ok next) :
    next.dispatched = conn.dispatched := by
  obtain ⟨inputBuffer, read, called⟩ := bind_eq_ok called
  obtain ⟨again, readAgain, received⟩ := bind_eq_ok received
  cases read.symm.trans readAgain
  cases here : conn.link.context with
  | none =>
      simp only [rcvMessage, here] at received
      cases received
      rfl
  | some context =>
      simp only [here] at called
      simp only [rcvMessage, here] at received
      obtain ⟨⟨ok, final, rest⟩, parsed, called⟩ := bind_eq_ok called
      obtain ⟨other, parsedAgain, received⟩ := bind_eq_ok received
      cases parsed.symm.trans parsedAgain
      obtain ⟨refused, refusing, called⟩ := bind_eq_ok called
      obtain ⟨link, refusingAgain, received⟩ := bind_eq_ok received
      cases refusing.symm.trans refusingAgain
      by_cases got : final.gotAll = true
      · rw [if_pos got] at called
        cases called
      · simp only [dispatchIf, if_neg got] at received
        cases received
        rfl

end HttpServer

end Muduo
