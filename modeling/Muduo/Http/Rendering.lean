import Muduo.Http.Parsing

/-!
# Rendering requests

`HeaderLine` and `RequestText` are well-formed pieces of a request; their
fields carry what well-formed means, so a text that cannot be parsed back cannot
be built.  `RequestText.parses` says that the text of a request parses to it,
whatever follows.
-/

namespace Muduo

open Library

/-- `HttpRequest::methodString`. -/
def Method.methodString : Method → String
  | .kGet => "GET"
  | .kPost => "POST"
  | .kHead => "HEAD"
  | .kPut => "PUT"
  | .kDelete => "DELETE"
  | .kInvalid => "UNKNOWN"

def Version.text : Version → String
  | .kHttp10 => "HTTP/1.0"
  | .kHttp11 => "HTTP/1.1"
  | .kUnknown => ""

/-- A header line `name:padding value padding`, without its CRLF. -/
structure HeaderLine where
  name : List Byte
  before : List Byte
  value : List Byte
  after : List Byte
  name_no_colon : colonByte ∉ name
  before_isspace : ∀ c ∈ before, isspace c = true
  after_isspace : ∀ c ∈ after, isspace c = true
  value_head : ∀ c ∈ value.head?, isspace c = false
  value_last : ∀ c ∈ value.getLast?, isspace c = false
  no_crlf : ¬ kCRLF <:+: name ++ colonByte :: (before ++ (value ++ after))

namespace HeaderLine

def render (line : HeaderLine) : List Byte :=
  line.name ++ colonByte :: (line.before ++ (line.value ++ line.after))

theorem colon_mem_render (line : HeaderLine) : colonByte ∈ line.render := by
  simp [render]

theorem idxOf_colon (line : HeaderLine) :
    line.render.idxOf colonByte = line.name.length := by
  rw [render, List.idxOf_append_of_notMem line.name_no_colon,
    List.idxOf_cons_self, Nat.add_zero]

private theorem rdropWhile_append {α : Type} {p : α → Bool}
    {front back : List α} (all : ∀ c ∈ back, p c = true) :
    (front ++ back).rdropWhile p = front.rdropWhile p := by
  have reversed : ∀ c ∈ back.reverse, p c = true := by
    intro c member
    exact all c (List.mem_reverse.mp member)
  rw [List.rdropWhile, List.reverse_append,
    List.dropWhile_append_of_pos reversed, List.rdropWhile]

theorem trimmed (line : HeaderLine) :
    ((line.before ++ (line.value ++ line.after)).dropWhile isspace).rdropWhile
      isspace = line.value := by
  rw [List.dropWhile_append_of_pos line.before_isspace]
  have head := line.value_head
  have last := line.value_last
  cases value : line.value with
  | nil =>
      have none : line.after.dropWhile isspace = [] :=
        List.dropWhile_eq_nil_iff.mpr line.after_isspace
      rw [List.nil_append, none]
      rfl
  | cons c rest =>
      rw [value] at head last
      have stops : isspace c = false := head c rfl
      rw [List.cons_append, List.dropWhile_cons_of_neg (by simp [stops]),
        ← List.cons_append, rdropWhile_append line.after_isspace]
      apply List.rdropWhile_eq_self_iff.mpr
      intro nonempty
      have ends := last _ (List.getLast?_eq_getLast_of_ne_nil nonempty)
      simp [ends]

theorem headerField_render (line : HeaderLine) :
    HttpRequest.headerField line.render line.name.length =
      (line.name, line.value) := by
  have name : line.render.take line.name.length = line.name := by
    rw [render, List.take_left]
  have rest : line.render.drop (line.name.length + 1) =
      line.before ++ (line.value ++ line.after) := by
    rw [render, ← List.drop_drop, List.drop_left]
    rfl
  rw [HttpRequest.headerField, name, rest, line.trimmed]

/-- What a header line does to the headers read before it. -/
def store (headers : HeaderMap) (line : HeaderLine) : HeaderMap :=
  headers.insert line.name line.value

theorem getElem?_store (headers : HeaderMap) (line : HeaderLine)
    (name : List Byte) :
    (store headers line)[name]? =
      if line.name = name then some line.value else headers[name]? := by
  rw [store, Std.ExtTreeMap.getElem?_insert]
  simp only [Std.LawfulEqCmp.compare_eq_iff_eq]

theorem addHeader_render (request : HttpRequest) (line : HeaderLine) :
    request.addHeader line.render (line.render.idxOf colonByte) =
      { request with headers := store request.headers line } := by
  rw [idxOf_colon, HttpRequest.addHeader, headerField_render]
  rfl

/-- The value of the last line with a given name. -/
def lastValue (lines : List HeaderLine) (name : List Byte) :
    Option (List Byte) :=
  (lines.reverse.find? (·.name = name)).map HeaderLine.value

theorem getElem?_foldl_store (lines : List HeaderLine) (headers : HeaderMap)
    (name : List Byte) :
    (lines.foldl store headers)[name]? =
      (lastValue lines name).or headers[name]? := by
  induction lines generalizing headers with
  | nil => rfl
  | cons line lines induction =>
      rw [List.foldl_cons, induction, getElem?_store]
      by_cases same : line.name = name
      · simp [lastValue, same]
      · simp [lastValue, same]

end HeaderLine

/-- A request without a body, up to how its header lines are padded. -/
structure RequestText where
  method : Method
  target : List Byte
  version : Version
  headers : List HeaderLine
  method_known : method ≠ .kInvalid
  version_known : version ≠ .kUnknown
  target_no_space : space ∉ target
  target_no_crlf : ¬ kCRLF <:+: target

namespace RequestText

def requestLine (text : RequestText) : List Byte :=
  ascii text.method.methodString ++
    space :: (text.target ++ space :: ascii text.version.text)

def render (text : RequestText) : List Byte :=
  text.requestLine ++ kCRLF ++
    (text.headers.flatMap (fun line => line.render ++ kCRLF) ++ kCRLF)

/-- The request that a text stands for. -/
def request (text : RequestText) : HttpRequest :=
  { method := text.method
    version := text.version
    path := text.target.takeWhile (· ≠ question)
    query := text.target.dropWhile (· ≠ question)
    receiveTime := 0
    headers := text.headers.foldl HeaderLine.store ∅ }

end RequestText

theorem Method.no_space_methodString (method : Method) :
    space ∉ ascii method.methodString := by
  cases method <;> decide

theorem Method.methodOf_methodString (method : Method) :
    HttpRequest.methodOf (ascii method.methodString) = method := by
  cases method <;> decide

theorem no_crlf_of_no_cr {line : List Byte} (absent : (0x0d : Byte) ∉ line) :
    ¬ kCRLF <:+: line := by
  intro occurs
  exact absent (occurs.subset (by decide))

theorem Method.no_crlf_methodString (method : Method) :
    ¬ kCRLF <:+: ascii method.methodString := by
  apply no_crlf_of_no_cr
  cases method <;> decide

theorem Version.no_crlf_text (version : Version) :
    ¬ kCRLF <:+: ascii version.text := by
  apply no_crlf_of_no_cr
  cases version <;> decide

namespace HttpRequest

theorem setTarget_eq {request : HttpRequest} (noQuery : request.query = [])
    (target : List Byte) :
    request.setTarget target = { request with
      path := target.takeWhile (· ≠ question)
      query := target.dropWhile (· ≠ question) } := by
  have mark : target.idxOf question =
      target.findIdx (fun c => !decide (c ≠ question)) := by
    rw [List.idxOf]
    congr 1
    funext c
    by_cases same : c = question
    · simp [same]
    · simp [same]
  rw [List.takeWhile_eq_take_findIdx_not, List.dropWhile_eq_drop_findIdx_not,
    ← mark]
  simp only [setTarget]
  split
  · rfl
  · next absent =>
      have whole : target.idxOf question = target.length :=
        not_not.mp absent
      rw [whole, List.take_length, List.drop_length, setPath, ← noQuery]

theorem setVersionText_text {version : Version}
    (known : version ≠ .kUnknown) (request : HttpRequest) :
    request.setVersionText (ascii version.text) =
      (true, request.setVersion version) := by
  cases version with
  | kUnknown => exact (known rfl).elim
  | kHttp10 => rfl
  | kHttp11 => rfl

theorem processRequestLine_spaces {request : HttpRequest}
    (unset : request.method = .kInvalid) {name target : List Byte}
    (known : methodOf name ≠ .kInvalid) (noSpace : space ∉ name)
    (targetNoSpace : space ∉ target) (text : List Byte) :
    request.processRequestLine (name ++ space :: (target ++ space :: text)) =
      .ok ((({ request with method := methodOf name }).setTarget
        target).setVersionText text) := by
  have first : (name ++ space :: (target ++ space :: text)).idxOf space =
      name.length := by
    rw [List.idxOf_append_of_notMem noSpace, List.idxOf_cons_self,
      Nat.add_zero]
  have second : (target ++ space :: text).idxOf space = target.length := by
    rw [List.idxOf_append_of_notMem targetNoSpace, List.idxOf_cons_self,
      Nat.add_zero]
  have behind : (name ++ space :: (target ++ space :: text)).drop
      (name.length + 1) = target ++ space :: text := by
    rw [← List.drop_drop, List.drop_left]
    rfl
  have last : (target ++ space :: text).drop (target.length + 1) = text := by
    rw [← List.drop_drop, List.drop_left]
    rfl
  have firstInside : name.length ≠
      (name ++ space :: (target ++ space :: text)).length := by
    simp
  have secondInside : target.length ≠ (target ++ space :: text).length := by
    simp
  simp only [processRequestLine, first, if_neg firstInside, List.take_left,
    setMethod_unset unset, ok_bind, behind, second, if_neg secondInside, last]
  rw [if_pos (decide_eq_true known)]
  rfl

end HttpRequest

namespace RequestText

theorem no_crlf_requestLine (text : RequestText) :
    ¬ kCRLF <:+: text.requestLine := by
  have notFirst : space ≠ (0x0d : Byte) := by decide
  have notSecond : space ≠ (0x0a : Byte) := by decide
  intro occurs
  rcases pair_infix_append_cons notFirst notSecond occurs with
    inMethod | behind
  · exact text.method.no_crlf_methodString inMethod
  · rcases pair_infix_append_cons notFirst notSecond behind with
      inTarget | inVersion
    · exact text.target_no_crlf inTarget
    · exact text.version.no_crlf_text inVersion

theorem processRequestLine_requestLine (text : RequestText) :
    HttpRequest.new.processRequestLine text.requestLine =
      .ok (true, { text.request with headers := ∅ }) := by
  have method := text.method.methodOf_methodString
  have known : HttpRequest.methodOf (ascii text.method.methodString) ≠
      .kInvalid := by
    rw [method]
    exact text.method_known
  rw [requestLine, HttpRequest.processRequestLine_spaces rfl known
      text.method.no_space_methodString text.target_no_space,
    HttpRequest.setTarget_eq rfl,
    HttpRequest.setVersionText_text text.version_known, method]
  rfl

/-- The header lines and the empty line complete the request. -/
theorem parses_headers (lines : List HeaderLine) (request : HttpRequest)
    (trailing : List Byte) :
    Parses ⟨.kExpectHeaders, request⟩
      (lines.flatMap (fun line => line.render ++ kCRLF) ++ kCRLF ++ trailing)
      .complete
      ⟨.kGotAll, { request with
        headers := lines.foldl HeaderLine.store request.headers }⟩
      trailing := by
  induction lines generalizing request with
  | nil =>
      exact .complete (cutLine_line (no_crlf_of_no_cr List.not_mem_nil) _)
        List.not_mem_nil
  | cons line lines induction =>
      have absent : ¬ kCRLF <:+: line.render := line.no_crlf
      have cut := cutLine_line absent
        (lines.flatMap (fun line => line.render ++ kCRLF) ++ kCRLF ++ trailing)
      rw [List.flatMap_cons, List.append_assoc _ kCRLF trailing,
        List.append_assoc, ← List.append_assoc _ kCRLF trailing]
      refine .header cut line.colon_mem_render ?_
      rw [line.addHeader_render]
      exact induction _

/-- The text of a request, whatever follows it, parses to the request. -/
theorem parses (text : RequestText) (trailing : List Byte) :
    Parses .new (text.render ++ trailing) .complete
      ⟨.kGotAll, text.request⟩ trailing := by
  have headers := parses_headers text.headers
    { text.request with headers := ∅ } trailing
  have cut := cutLine_line text.no_crlf_requestLine
    (text.headers.flatMap (fun line => line.render ++ kCRLF) ++ kCRLF ++
      trailing)
  rw [render, List.append_assoc]
  exact .requestLine cut text.processRequestLine_requestLine headers

/-- On a fresh context, `parseRequest` undoes rendering: it completes the
request and leaves exactly the bytes that follow it. -/
theorem parseRequest_render (text : RequestText) (trailing : List Byte)
    (initialSize : Nat) (receiveTime : Timestamp) :
    ∃ filled context rest,
      (Buffer.new initialSize).append (text.render ++ trailing) = .ok filled ∧
      HttpContext.new.parseRequest filled receiveTime =
        .ok (true, context, rest) ∧
      context.gotAll = true ∧
      context.request.method = text.method ∧
      context.request.version = text.version ∧
      context.request.path ++ context.request.query = text.target ∧
      context.request.path = text.target.takeWhile (· ≠ question) ∧
      (∀ name, context.request.headers[name]? =
        HeaderLine.lastValue text.headers name) ∧
      rest.content = trailing := by
  obtain ⟨filled, appended, becomes⟩ :=
    (Buffer.new_sound initialSize).append (text.render ++ trailing)
  obtain ⟨verdict, context, rest, parsed, _, found⟩ :=
    HttpContext.parseRequest_parses HttpContext.new_ready becomes.sound
      receiveTime
  rw [becomes.content_eq, Buffer.content_new, List.nil_append] at found
  obtain ⟨rfl, contexts, left⟩ := found.unique (text.parses trailing)
  have got : context.gotAll = true := found.gotAll_eq
  have request : context.request.timeless = text.request :=
    congrArg HttpContext.request contexts
  have path : context.request.path = text.target.takeWhile (· ≠ question) :=
    congrArg HttpRequest.path request
  have query : context.request.query =
      text.target.dropWhile (· ≠ question) :=
    congrArg HttpRequest.query request
  have headers : context.request.headers = text.headers.foldl
      HeaderLine.store ∅ :=
    congrArg HttpRequest.headers request
  refine ⟨filled, context, rest, appended, parsed, got,
    congrArg HttpRequest.method request, congrArg HttpRequest.version request,
    ?_, path, ?_, left⟩
  · rw [path, query, List.takeWhile_append_dropWhile]
  · intro name
    rw [headers, HeaderLine.getElem?_foldl_store]
    simp

end RequestText

end Muduo
