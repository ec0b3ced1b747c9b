import Muduo.Base.Buffer
import Muduo.Base.Timer
import Mathlib.Data.List.DropRight
import Std.Data.ExtTreeMap

/-!
# HTTP requests

`HttpRequest` and `HttpContext::processRequestLine`, which fills it from one
line.  A pointer range is the list of its bytes; `std::find` over a range is
`List.idxOf`, which yields the length when the byte is absent.
-/

namespace Muduo

abbrev HeaderMap := Std.ExtTreeMap (List Byte) (List Byte)

inductive Method where
  | kInvalid
  | kGet
  | kPost
  | kHead
  | kPut
  | kDelete
  deriving DecidableEq, Repr

inductive Version where
  | kUnknown
  | kHttp10
  | kHttp11
  deriving DecidableEq, Repr

def space : Byte := 0x20
def question : Byte := 0x3f
def colonByte : Byte := 0x3a

/-- `isspace` in the C locale. -/
def isspace (c : Byte) : Bool :=
  c == space || (0x09 ≤ c && c ≤ 0x0d)

structure HttpRequest where
  method : Method
  version : Version
  path : List Byte
  query : List Byte
  receiveTime : Timestamp
  headers : HeaderMap
  deriving DecidableEq

namespace HttpRequest

def new : HttpRequest :=
  { method := .kInvalid, version := .kUnknown, path := [], query := []
    receiveTime := 0, headers := ∅ }

/-- The method a name stands for. -/
def methodOf (m : List Byte) : Method :=
  if m = ascii "GET" then .kGet
  else if m = ascii "POST" then .kPost
  else if m = ascii "HEAD" then .kHead
  else if m = ascii "PUT" then .kPut
  else if m = ascii "DELETE" then .kDelete
  else .kInvalid

def setMethod (request : HttpRequest) (m : List Byte) :
    Checked (Bool × HttpRequest) := do
  assertThat (request.method = .kInvalid) .setMethod
  let method := methodOf m
  return (method ≠ .kInvalid, { request with method })

def setVersion (request : HttpRequest) (version : Version) : HttpRequest :=
  { request with version }

def setPath (request : HttpRequest) (path : List Byte) : HttpRequest :=
  { request with path }

def setQuery (request : HttpRequest) (query : List Byte) : HttpRequest :=
  { request with query }

def setReceiveTime (request : HttpRequest) (receiveTime : Timestamp) :
    HttpRequest :=
  { request with receiveTime }

/-- The field and the trimmed value of a header line with its colon. -/
def headerField (line : List Byte) (colon : Nat) : List Byte × List Byte :=
  (line.take colon,
    ((line.drop (colon + 1)).dropWhile isspace).rdropWhile isspace)

def addHeader (request : HttpRequest) (line : List Byte) (colon : Nat) :
    HttpRequest :=
  let (field, value) := headerField line colon
  { request with headers := request.headers.insert field value }

def getHeader (request : HttpRequest) (field : List Byte) : List Byte :=
  (request.headers[field]?).getD []

/-- Setting path and query from the target between the two spaces. -/
def setTarget (request : HttpRequest) (target : List Byte) : HttpRequest :=
  let mark := target.idxOf question
  if mark ≠ target.length then
    (request.setPath (target.take mark)).setQuery (target.drop mark)
  else request.setPath target

/-- The version test on the rest of the line behind the second space. -/
def setVersionText (request : HttpRequest) (text : List Byte) :
    Bool × HttpRequest :=
  if text.length = 8 ∧ text.take 7 = ascii "HTTP/1." then
    if text.drop 7 = ascii "1" then (true, request.setVersion .kHttp11)
    else if text.drop 7 = ascii "0" then (true, request.setVersion .kHttp10)
    else (false, request)
  else (false, request)

/-- `HttpContext::processRequestLine` on the request of the context. -/
def processRequestLine (request : HttpRequest) (line : List Byte) :
    Checked (Bool × HttpRequest) := do
  let first := line.idxOf space
  if first = line.length then
    return (false, request)
  else
    let (known, request) ← request.setMethod (line.take first)
    if known then
      let start := line.drop (first + 1)
      let second := start.idxOf space
      if second = start.length then
        return (false, request)
      else
        return (request.setTarget (start.take second)).setVersionText
          (start.drop (second + 1))
    else
      return (false, request)

/-- The request up to the time it was received. -/
def timeless (request : HttpRequest) : HttpRequest :=
  { request with receiveTime := 0 }

end HttpRequest

end Muduo
