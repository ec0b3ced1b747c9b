import Muduo.Http.Request

/-!
# The request parser

`HttpContext::parseRequest` consumes lines from a buffer until a request is
complete, a request line is refused or no further line is there.  Its loop is
`parseLoop`; the fuel `parseRequest` gives it is more than the loop can use
when it starts in one of the two states that consume lines.
-/

namespace Muduo

inductive HttpRequestParseState where
  | kExpectRequestLine
  | kExpectHeaders
  | kExpectBody
  | kGotAll
  deriving DecidableEq, Repr

structure HttpContext where
  state : HttpRequestParseState
  request : HttpRequest
  deriving DecidableEq

/-- The variables of the loop in `parseRequest`. -/
structure ParseLoop where
  ok : Bool
  hasMore : Bool
  context : HttpContext
  buf : Buffer
  deriving DecidableEq

def ParseLoop.stop (loop : ParseLoop) : ParseLoop :=
  { loop with hasMore := false }

namespace HttpContext

def new : HttpContext :=
  { state := .kExpectRequestLine, request := .new }

def gotAll (context : HttpContext) : Bool := context.state == .kGotAll

def reset (_ : HttpContext) : HttpContext := new

/-- The context up to the time its request was received. -/
def timeless (context : HttpContext) : HttpContext :=
  { context with request := context.request.timeless }

/-- What a header line, or the line that ends the headers, makes of the
request under construction. -/
def processHeaderLine (request : HttpRequest) (line : List Byte) :
    HttpContext :=
  if line.idxOf colonByte ≠ line.length then
    { state := .kExpectHeaders
      request := request.addHeader line (line.idxOf colonByte) }
  else { state := .kGotAll, request }

/-- The body of the loop. -/
def parseStep (receiveTime : Timestamp) (loop : ParseLoop) :
    Checked ParseLoop :=
  match loop.context.state with
  | .kExpectRequestLine =>
      match loop.buf.findCRLF with
      | some crlf => do
          let (ok, request) ← loop.context.request.processRequestLine
            (loop.buf.range loop.buf.peek crlf)
          if ok then
            let buf ← loop.buf.retrieveUntil (crlf + 2)
            return { loop with
              ok
              context := { state := .kExpectHeaders
                           request := request.setReceiveTime receiveTime }
              buf }
          else
            return { loop with
              ok, hasMore := false, context := { loop.context with request } }
      | none => .ok loop.stop
  | .kExpectHeaders =>
      match loop.buf.findCRLF with
      | some crlf => do
          let context := processHeaderLine loop.context.request
            (loop.buf.range loop.buf.peek crlf)
          let buf ← loop.buf.retrieveUntil (crlf + 2)
          return { loop with hasMore := !context.gotAll, context, buf }
      | none => .ok loop.stop
  | .kExpectBody => .ok loop
  | .kGotAll => .ok loop

def parseLoop (receiveTime : Timestamp) :
    Nat → ParseLoop → Checked ParseLoop
  | fuel, loop =>
      if loop.hasMore then
        match fuel with
        | 0 => .error .parseRequestEndless
        | fuel + 1 => do
            let loop ← parseStep receiveTime loop
            parseLoop receiveTime fuel loop
      else .ok loop

def parseRequest (context : HttpContext) (buf : Buffer)
    (receiveTime : Timestamp) : Checked (Bool × HttpContext × Buffer) := do
  let loop ← parseLoop receiveTime (buf.readableBytes + 1)
    { ok := true, hasMore := true, context, buf }
  return (loop.ok, loop.context, loop.buf)

/-- With no line left to consume the loop does not end, whatever the fuel. -/
theorem parseLoop_endless (receiveTime : Timestamp) (fuel : Nat)
    {loop : ParseLoop} (running : loop.hasMore = true)
    (state : loop.context.state = .kExpectBody ∨
      loop.context.state = .kGotAll) :
    parseLoop receiveTime fuel loop = .error .parseRequestEndless := by
  induction fuel with
  | zero => simp [parseLoop, running]
  | succ fuel induction =>
      have stays : parseStep receiveTime loop = .ok loop := by
        rcases state with body | all
        · simp [parseStep, body]
        · simp [parseStep, all]
      rw [parseLoop, if_pos running]
      simp only [stays, ok_bind, induction]

end HttpContext

end Muduo
