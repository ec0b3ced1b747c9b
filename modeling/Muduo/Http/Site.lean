import Muduo.Http.Conversations

/-!
# The site of the example server

`onRequest` of `SimpleHttpServer`.  The time that it prints is a parameter, as it
shows at the request with a given number.
-/

namespace Muduo

open Library

namespace HttpResponse

def setStatusCode (response : HttpResponse) (statusCode : HttpStatusCode) :
    HttpResponse :=
  { response with statusCode }

def setStatusMessage (response : HttpResponse) (statusMessage : List Byte) :
    HttpResponse :=
  { response with statusMessage }

def setCloseConnection (response : HttpResponse) (closeConnection : Bool) :
    HttpResponse :=
  { response with closeConnection }

def addHeader (response : HttpResponse) (key value : List Byte) :
    HttpResponse :=
  { response with headers := response.headers.insert key value }

def setContentType (response : HttpResponse) (contentType : List Byte) :
    HttpResponse :=
  response.addHeader (ascii "Content-Type") contentType

def setBody (response : HttpResponse) (body : List Byte) : HttpResponse :=
  { response with body }

end HttpResponse

/-- The page at the root; `now` is the text of `toFormattedString`. -/
def rootPage (now : List Byte) : List Byte :=
  ascii "<html><head><title>This is title</title></head>" ++
    ascii "<body><h1>Hello</h1>Now is " ++ now ++ ascii "</body></html>"

/-- `onRequest`, with the time as it shows at each request. -/
def onRequest (now : Nat → List Byte) : HttpCallback :=
  fun dispatched req response =>
    if req.path = ascii "/" then
      ((((response.setStatusCode .k200Ok).setStatusMessage
        (ascii "OK")).setContentType (ascii "text/html")).addHeader
          (ascii "Server") (ascii "Muduo")).setBody
        (rootPage (now dispatched.length))
    else if req.path = ascii "/hello" then
      ((((response.setStatusCode .k200Ok).setStatusMessage
        (ascii "OK")).setContentType (ascii "text/plain")).addHeader
          (ascii "Server") (ascii "Muduo")).setBody
        (ascii "hello, world!\n")
    else
      ((response.setStatusCode .k404NotFound).setStatusMessage
        (ascii "Not Found")).setCloseConnection true

namespace HttpServer

theorem closes_timeless (req : HttpRequest) :
    closes req.timeless = closes req := rfl

theorem onRequest_timeless (now : Nat → List Byte) :
    Timeless (onRequest now) := by
  intro before req
  simp only [responseTo, closes_timeless, onRequest, List.length_map]
  rfl

/-- The headers of the two pages. -/
def pageHeaders (contentType : String) : HeaderMap :=
  ((∅ : HeaderMap).insert (ascii "Content-Type") (ascii contentType)).insert
    (ascii "Server") (ascii "Muduo")

theorem length_rootPage (now : List Byte) :
    (rootPage now).length = now.length + 88 := by
  have front : (ascii "<html><head><title>This is title</title></head>" ++
      ascii "<body><h1>Hello</h1>Now is ").length = 74 := by
    decide
  have back : (ascii "</body></html>").length = 14 := by decide
  rw [rootPage, List.length_append, List.length_append, front, back]
  omega

theorem readable_of_site {response : HttpResponse}
    (message : response.statusMessage ∈ [ascii "OK", ascii "Not Found"])
    (headers : response.headers ∈
      [pageHeaders "text/html", pageHeaders "text/plain", ∅])
    (short : response.body.length < 2 ^ 31) :
    response.Readable ∧ response.Short := by
  have texts : ∀ message ∈ [ascii "OK", ascii "Not Found"],
      OneLine message ∧ message.length < 2 ^ 31 := by
    decide
  have fields : ∀ headers ∈
      [pageHeaders "text/html", pageHeaders "text/plain", ∅],
      (∀ header ∈ headers.toList,
        OneLine header.1 ∧ colonByte ∉ header.1 ∧
          header.1 ≠ ascii "Content-Length" ∧
          header.1 ≠ ascii "Connection") ∧
      (∀ header ∈ headers.toList, OneLine header.2) ∧
      ∀ header ∈ headers.toList,
        header.1.length < 2 ^ 31 ∧ header.2.length < 2 ^ 31 := by
    decide +kernel
  obtain ⟨line, shortLine⟩ := texts response.statusMessage message
  obtain ⟨names, values, lengths⟩ := fields response.headers headers
  exact ⟨⟨line, names, values, short⟩, ⟨shortLine, lengths⟩⟩

theorem onRequest_site {now : Nat → List Byte}
    (short : ∀ count, (now count).length < 32) (before : List HttpRequest)
    (req : HttpRequest) :
    (responseTo (onRequest now) before req).Readable ∧
      (responseTo (onRequest now) before req).Short := by
  simp only [responseTo, onRequest]
  split
  next root =>
    apply readable_of_site List.mem_cons_self List.mem_cons_self
    have clock := short before.length
    simp only [HttpResponse.setBody, length_rootPage]
    omega
  next other =>
    split
    next hello =>
      apply readable_of_site List.mem_cons_self
        (List.mem_cons_of_mem _ List.mem_cons_self)
      have size : (ascii "hello, world!\n").length < 2 ^ 31 := by decide
      exact size
    next missing =>
      apply readable_of_site (List.mem_cons_of_mem _ List.mem_cons_self)
        (List.mem_cons_of_mem _ (List.mem_cons_of_mem _ List.mem_cons_self))
      exact Nat.zero_lt_succ _

/-- Every page of the site can be read back. -/
theorem onRequest_readsBack {now : Nat → List Byte}
    (short : ∀ count, (now count).length < 32) :
    ReadsBack (onRequest now) where
  readable before req := (onRequest_site short before req).1
  short before req := (onRequest_site short before req).2

section Visit

theorem oneAtATime_of_take {texts : List RequestText} {chunks : List Chunk}
    (turn : ∀ count < chunks.length,
      (RequestText.arrived texts
        (Chunk.joined (chunks.take (count + 1))).length).length ≤
      (RequestText.arrived texts
        (Chunk.joined (chunks.take count)).length).length + 1) :
    OneAtATime texts chunks := by
  rintro before chunk after rfl
  have last := turn before.length (by simp)
  have front : (before ++ chunk :: after).take before.length = before :=
    List.take_left
  have longer : (before ++ chunk :: after).take (before.length + 1) =
      before ++ [chunk] := by
    rw [List.take_append, List.take_of_length_le (Nat.le_succ _)]
    simp
  rwa [front, longer] at last

def getHello : RequestText :=
  { getRoot with
    target := ascii "/hello"
    target_no_space := by decide
    target_no_crlf := no_crlf_of_no_cr (by decide) }

def getMissing : RequestText :=
  { getRoot with
    target := ascii "/missing?q"
    target_no_space := by decide
    target_no_crlf := no_crlf_of_no_cr (by decide) }

/-- Three requests, the second one cut, with write events in between. -/
def visit : List ConnectionAction :=
  [.read ⟨getRoot.render ++ getHello.render.take 9, 1⟩, .writable,
    .read ⟨getHello.render.drop 9, 2⟩, .read ⟨getMissing.render, 3⟩, .writable]

def clock : Nat → List Byte := fun _ => ascii "20240309 12:00:00"

theorem visit_converses :
    ∃ conn, (connectionMachine silentOwner (onRequest clock)).Run
        (newConnection 5 64 [.accepted 30, .accepted 99, .failed .ewouldblock])
        visit conn ∧
      (decodeFrames Reply.read
          (conn.link.kernel.accepted ++
            conn.link.outputBuffer.content)).map (List.map Reply.statusCode) =
        some [200, 200, 404] := by
  have found : ((connectionMachine silentOwner (onRequest clock)).execute
      (newConnection 5 64 [.accepted 30, .accepted 99, .failed .ewouldblock])
      visit).any (fun conn => conn.link.trace.all fun event =>
        event != .directWrite (.failed .epipe) &&
          event != .directWrite (.failed .econnreset)) = true := by
    decide +kernel
  obtain ⟨conn, runs, unbroken⟩ := Machine.run_of_execute found
  have healthy : conn.link.Healthy := by
    intro event member broken
    have other := List.all_eq_true.mp unbroken event member
    unfold LinkEvent.IsBrokenPipe at broken
    split at broken
    · cases other
    · cases other
    · exact broken
  have front : Chunk.joined (delivered visit) <+:
      RequestText.stream [getRoot, getHello, getMissing] := by
    decide +kernel
  have one : OneAtATime [getRoot, getHello, getMissing] (delivered visit) :=
    oneAtATime_of_take (by decide +kernel)
  have short : ∀ count, (clock count).length < 32 := by
    intro count
    have size : (ascii "20240309 12:00:00").length < 32 := by decide
    exact size
  refine ⟨conn, runs, ?_⟩
  rw [run_converses silentOwner_quiet (onRequest_timeless clock)
    (onRequest_readsBack short) runs front one healthy]
  decide +kernel

end Visit

end HttpServer

end Muduo
