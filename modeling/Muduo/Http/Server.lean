import Muduo.Base.StringPiece
import Muduo.Http.Incremental
import Muduo.Net.SendRuns

/-!
# The HTTP server

`HttpServer` on one of its connections: what it does when a read has delivered
a chunk.  The connection keeps, beside its link, the requests handed to the HTTP
callback so far; the callback may depend on them, as a closure with a state
would.
-/

namespace Muduo

/-- The codes of `HttpResponse::HttpStatusCode`. -/
inductive HttpStatusCode where
  | kUnknown
  | k200Ok
  | k301MovedPermanently
  | k400BadRequest
  | k404NotFound
  deriving DecidableEq, Repr

def HttpStatusCode.value : HttpStatusCode → Nat
  | .kUnknown => 0
  | .k200Ok => 200
  | .k301MovedPermanently => 301
  | .k400BadRequest => 400
  | .k404NotFound => 404

structure HttpResponse where
  headers : HeaderMap
  statusCode : HttpStatusCode
  statusMessage : List Byte
  closeConnection : Bool
  body : List Byte

namespace HttpResponse

def new (close : Bool) : HttpResponse :=
  { headers := ∅, statusCode := .kUnknown, statusMessage := []
    closeConnection := close, body := [] }

/-- What `snprintf` leaves in an array of 32 bytes, less the final zero. -/
def formatted (text : String) : List Byte :=
  (ascii text).take 31

/-- The pieces that `appendToBuffer` appends, in order. -/
def pieces (response : HttpResponse) : List (List Byte) :=
  [formatted ("HTTP/1.1 " ++ toString response.statusCode.value ++ " "),
    response.statusMessage, kCRLF] ++
  (if response.closeConnection then [ascii "Connection: close\r\n"]
  else
    [formatted ("Content-Length: " ++ toString response.body.length ++ "\r\n"),
      ascii "Connection: Keep-Alive\r\n"]) ++
  response.headers.toList.flatMap (fun header =>
    [header.1, ascii ": ", header.2, kCRLF]) ++
  [kCRLF, response.body]

/-- Pieces are appended until one of them throws. -/
def appendPieces (limit : Nat) (output : Buffer) :
    List (List Byte) → Checked (Completion × Buffer)
  | [] => .ok (.returned, output)
  | piece :: pieces => do
      let (completion, next) ← Buffer.SizeT.appendString limit output piece
      if completion = .threw then
        return (.threw, next)
      appendPieces limit next pieces

/-- `appendToBuffer` with `size_t` and `int`, for a vector that throws above
`limit`. -/
def appendToBufferSized (limit : Nat) (response : HttpResponse)
    (output : Buffer) : Checked (Completion × Buffer) :=
  appendPieces limit output response.pieces

/-- `max_size` of a vector of bytes. -/
def vectorLimit : Nat := 2 ^ 63 - 1

def appendToBuffer (response : HttpResponse) (output : Buffer) :
    Checked Buffer := do
  match ← response.appendToBufferSized vectorLimit output with
  | (.returned, after) => return after
  | (.threw, _) => .error .lengthError

end HttpResponse

/-- The callback, given the requests it has seen before. -/
abbrev HttpCallback :=
  List HttpRequest → HttpRequest → HttpResponse → HttpResponse

def defaultHttpCallback : HttpCallback := fun _ _ response =>
  { response with
    statusCode := .k404NotFound
    statusMessage := ascii "Not Found"
    closeConnection := true }

/-- The link of a connection and the requests dispatched for it. -/
structure HttpConnection where
  link : LinkedSocket HttpContext
  dispatched : List HttpRequest

def badRequest : List Byte := ascii "HTTP/1.1 400 Bad Request\r\n\r\n"

namespace HttpServer

variable (owner : LinkOwner HttpContext) (httpCallback : HttpCallback)

/-- A connection once `prepare` and `newConnection` are through. -/
def newConnection (fd : Int) (highWaterMark : Nat)
    (writes : List WriteResult) : HttpConnection :=
  { link := (LinkedSocket.registered fd highWaterMark
      { writes, accepted := [] }).setContext (some .new)
    dispatched := [] }

/-- The flag `close` of `rcvRequest`. -/
def closes (req : HttpRequest) : Bool :=
  let connection := req.getHeader (ascii "Connection")
  connection = ascii "close" ∨
    (req.version = .kHttp10 ∧ connection ≠ ascii "Keep-Alive")

def shutdownIf (close : Bool) (link : LinkedSocket HttpContext) :
    LinkedSocket HttpContext :=
  if close then link.shutdown else link

def rcvRequest (conn : HttpConnection) (req : HttpRequest) :
    Checked HttpConnection := do
  let response := httpCallback conn.dispatched req (.new (closes req))
  let buf ← response.appendToBuffer (.new kInitialSize)
  let (link, _) ← conn.link.sendBuffer owner buf
  return { link := shutdownIf response.closeConnection link
           dispatched := conn.dispatched ++ [req] }

/-- The answer to a refused request. -/
def refuseUnless (ok : Bool) (link : LinkedSocket HttpContext) :
    Checked (LinkedSocket HttpContext) :=
  if ok then .ok link
  else do
    let link ← link.send owner badRequest
    return link.shutdown

/-- The end of `rcvMessage`: a complete request goes to the callback and the
context is made ready for the next one. -/
def dispatchIf (conn : HttpConnection) (context : HttpContext) :
    Checked HttpConnection :=
  if context.gotAll then do
    let conn ← rcvRequest owner httpCallback conn context.request
    return { conn with link := conn.link.setContext (some context.reset) }
  else .ok conn

def rcvMessage (conn : HttpConnection) (receiveTime : Timestamp) :
    Checked HttpConnection :=
  match conn.link.context with
  | none => .ok conn
  | some context => do
      let (ok, context, inputBuffer) ←
        context.parseRequest conn.link.inputBuffer receiveTime
      let link ← refuseUnless owner ok
        { conn.link with inputBuffer, context := some context }
      dispatchIf owner httpCallback { conn with link } context

/-- A read that delivers the bytes of a chunk, as in `LinkedSocket::handleRead`. -/
def receive (conn : HttpConnection) (chunk : Chunk) :
    Checked HttpConnection := do
  let inputBuffer ← conn.link.inputBuffer.readFd (.ok chunk.bytes)
  rcvMessage owner httpCallback
    { conn with link := { conn.link with inputBuffer } } chunk.receiveTime

/-- A connection that receives the chunks of a stream. -/
def serve (conn : HttpConnection) (chunks : List Chunk) :
    Checked HttpConnection :=
  chunks.foldlM (receive owner httpCallback) conn

end HttpServer

end Muduo
