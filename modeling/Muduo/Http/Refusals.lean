import Muduo.Http.Grammar

/-!
# What a call of the parser refuses

A call of `parseRequest` that expects a request line refuses exactly the buffers
whose first line is complete and not a request line, and leaves them alone.
-/

namespace Muduo

theorem AcceptedLine.space_mem {line : List Byte}
    (accepted : AcceptedLine line) : space ∈ line := by
  obtain ⟨method, target, version, _, _, _, rfl⟩ := accepted
  simp

namespace HttpRequest

variable {request after : HttpRequest} {line : List Byte} {accepted : Bool}

theorem processRequestLine_noSpace (noSpace : space ∉ line) :
    request.processRequestLine line = .ok (false, request) := by
  rw [processRequestLine, if_pos (List.idxOf_eq_length_iff.mpr noSpace)]
  rfl

theorem processRequestLine_set (known : request.method ≠ .kInvalid)
    (spaced : space ∈ line) :
    request.processRequestLine line = .error .setMethod := by
  have inside := List.idxOf_lt_length_iff.mpr spaced
  simp only [processRequestLine, if_neg (Nat.ne_of_lt inside), setMethod,
    assertThat_bind, if_neg known]
  rfl

/-- Whatever method a request has, a line that is processed is accepted exactly
if it is a request line. -/
theorem accepted_iff
    (processed : request.processRequestLine line = .ok (accepted, after)) :
    accepted = true ↔ AcceptedLine line := by
  by_cases unset : request.method = .kInvalid
  · constructor
    · rintro rfl
      exact acceptedLine_of_processed unset processed
    · intro inGrammar
      obtain ⟨other, again⟩ := processed_of_acceptedLine unset inGrammar
      cases processed.symm.trans again
      rfl
  · by_cases spaced : space ∈ line
    · cases (processRequestLine_set unset spaced).symm.trans processed
    · cases (processRequestLine_noSpace spaced).symm.trans processed
      constructor
      · intro impossible
        cases impossible
      · intro inGrammar
        exact (spaced inGrammar.space_mem).elim

end HttpRequest

namespace HttpContext

variable {request after : HttpRequest} {buf : Buffer}
variable {line behind : List Byte} {receiveTime : Timestamp}

theorem parseRequest_noLine (sound : buf.Sound)
    (none : cutLine buf.content = none) :
    parseRequest ⟨.kExpectRequestLine, request⟩ buf receiveTime =
      .ok (true, ⟨.kExpectRequestLine, request⟩, buf) := by
  have missing := sound.findCRLF_none none
  have stepped : parseStep receiveTime
      ⟨true, true, ⟨.kExpectRequestLine, request⟩, buf⟩ =
      .ok ⟨true, false, ⟨.kExpectRequestLine, request⟩, buf⟩ := by
    simp [parseStep, missing, ParseLoop.stop]
  simp only [parseRequest, parseLoop_step rfl stepped, parseLoop_stopped,
    ok_bind]
  rfl

theorem parseStep_failed (sound : buf.Sound)
    (cut : cutLine buf.content = some (line, behind)) {fault : Fault}
    (failed : request.processRequestLine line = .error fault) :
    parseStep receiveTime ⟨true, true, ⟨.kExpectRequestLine, request⟩, buf⟩ =
      .error fault := by
  obtain ⟨crlf, _, found, text, _, _⟩ := sound.findCRLF_some cut
  simp only [parseStep, found, text, failed]
  rfl

theorem parseRequest_failed (sound : buf.Sound)
    (cut : cutLine buf.content = some (line, behind)) {fault : Fault}
    (failed : request.processRequestLine line = .error fault) :
    parseRequest ⟨.kExpectRequestLine, request⟩ buf receiveTime =
      .error fault := by
  have stepped : parseStep receiveTime
      ⟨true, true, ⟨.kExpectRequestLine, request⟩, buf⟩ = .error fault :=
    parseStep_failed sound cut failed
  simp only [parseRequest, parseLoop, stepped, if_true]
  rfl

theorem parseRequest_refused (sound : buf.Sound)
    (cut : cutLine buf.content = some (line, behind))
    (refused : request.processRequestLine line = .ok (false, after)) :
    parseRequest ⟨.kExpectRequestLine, request⟩ buf receiveTime =
      .ok (false, ⟨.kExpectRequestLine, after⟩, buf) := by
  obtain ⟨crlf, _, found, text, _, _⟩ := sound.findCRLF_some cut
  have stepped : parseStep receiveTime
      ⟨true, true, ⟨.kExpectRequestLine, request⟩, buf⟩ =
      .ok ⟨false, false, ⟨.kExpectRequestLine, after⟩, buf⟩ := by
    simp [parseStep, found, text, refused, pure, Except.pure]
  simp only [parseRequest, parseLoop_step rfl stepped, parseLoop_stopped,
    ok_bind]
  rfl

theorem parseRequest_accepted (sound : buf.Sound)
    (cut : cutLine buf.content = some (line, behind))
    (accepts : request.processRequestLine line = .ok (true, after)) :
    ∃ final rest, parseRequest ⟨.kExpectRequestLine, request⟩ buf
      receiveTime = .ok (true, final, rest) := by
  obtain ⟨crlf, left, found, text, retrieved, becomes⟩ :=
    sound.findCRLF_some cut
  have stepped : parseStep receiveTime
      ⟨true, true, ⟨.kExpectRequestLine, request⟩, buf⟩ =
      .ok ⟨true, true, ⟨.kExpectHeaders, after.setReceiveTime receiveTime⟩,
        left⟩ := by
    simp [parseStep, found, text, accepts, retrieved, pure, Except.pure]
  have enough : left.content.length < buf.readableBytes := by
    rw [becomes.content_eq, ← sound.length_content]
    exact length_lt_of_cutLine cut
  obtain ⟨verdict, final, rest, looped, _, parses⟩ :=
    parseLoop_parses receiveTime enough becomes.sound
      (.headers (after.setReceiveTime receiveTime))
  have accepted : verdict.ok = true := by
    cases verdict with
    | incomplete => rfl
    | complete => rfl
    | refused => exact (Parses.not_refused_headers parses).elim
  rw [accepted] at looped
  refine ⟨final, rest, ?_⟩
  simp only [parseRequest, parseLoop_step rfl stepped, looped, ok_bind]
  rfl

/-- A result is `false` if and only if the first line of the buffer is complete
and not a request line; then the buffer and the state are as they were. -/
def Judges (buf : Buffer) (ok : Bool) (final : HttpContext) (rest : Buffer) :
    Prop :=
  (ok = false ↔ ∃ line behind,
    cutLine buf.content = some (line, behind) ∧ ¬ AcceptedLine line) ∧
  (ok = false → rest = buf ∧ final.state = .kExpectRequestLine)

/-- Every call that expects a request line and returns judges the buffer. -/
theorem parseRequest_judges (sound : buf.Sound) {ok : Bool}
    {final : HttpContext} {rest : Buffer}
    (parsed : parseRequest ⟨.kExpectRequestLine, request⟩ buf receiveTime =
      .ok (ok, final, rest)) : Judges buf ok final rest := by
  cases cut : cutLine buf.content with
  | none =>
      cases (parseRequest_noLine sound cut).symm.trans parsed
      simp [Judges, cut]
  | some pair =>
      obtain ⟨line, behind⟩ := pair
      cases processed : request.processRequestLine line with
      | error fault =>
          cases (parseRequest_failed sound cut processed).symm.trans parsed
      | ok result =>
          obtain ⟨accepted, after⟩ := result
          have grammar := HttpRequest.accepted_iff processed
          cases accepted with
          | false =>
              cases (parseRequest_refused sound cut processed).symm.trans
                parsed
              have outside : ¬ AcceptedLine line := by
                intro inGrammar
                cases grammar.mpr inGrammar
              exact ⟨⟨fun _ => ⟨line, behind, cut, outside⟩, fun _ => rfl⟩,
                fun _ => ⟨rfl, rfl⟩⟩
          | true =>
              have accepts : ∃ final rest,
                  parseRequest ⟨.kExpectRequestLine, request⟩ buf receiveTime =
                    .ok (true, final, rest) :=
                parseRequest_accepted sound cut processed
              obtain ⟨_, _, result⟩ := accepts
              cases result.symm.trans parsed
              refine ⟨⟨?_, ?_⟩, ?_⟩
              · intro impossible
                cases impossible
              · rintro ⟨other, _, again, outside⟩
                cases cut.symm.trans again
                exact (outside (grammar.mp rfl)).elim
              · intro impossible
                cases impossible

/-- For a request without a method, `processRequestLine` accepts exactly the
request lines, and `parseRequest` judges its buffer when it expects one.  With
any other request it does so if it returns. -/
theorem requestLines_are_judged {request : HttpRequest}
    (unset : request.method = .kInvalid) (line : List Byte) {buf : Buffer}
    (sound : buf.Sound) (receiveTime : Timestamp) :
    (∃ accepted after,
      request.processRequestLine line = .ok (accepted, after) ∧
      (accepted = true ↔ AcceptedLine line)) ∧
    (∃ ok final rest,
      parseRequest ⟨.kExpectRequestLine, request⟩ buf receiveTime =
        .ok (ok, final, rest) ∧ Judges buf ok final rest) ∧
    ∀ other ok final rest,
      parseRequest ⟨.kExpectRequestLine, other⟩ buf receiveTime =
        .ok (ok, final, rest) → Judges buf ok final rest := by
  refine ⟨?_, ?_, ?_⟩
  · obtain ⟨accepted, after, processed⟩ :=
      HttpRequest.processRequestLine_unset unset line
    exact ⟨accepted, after, processed, HttpRequest.accepted_iff processed⟩
  · obtain ⟨verdict, final, rest, parsed, _, _⟩ :=
      parseRequest_parses (.requestLine unset) sound receiveTime
    exact ⟨verdict.ok, final, rest, parsed, parseRequest_judges sound parsed⟩
  · intro other ok final rest parsed
    exact parseRequest_judges sound parsed

/-- A request line without a version, whole and then cut before its CRLF. -/
theorem requestLines_are_judged_example :
    ¬ AcceptedLine (ascii "GET /") ∧
    ∃ buf, (Buffer.new kInitialSize).append (ascii "GET /\r\n\r\n") = .ok buf ∧
      ∃ final, new.parseRequest buf 1 = .ok (false, final, buf) := by
  obtain ⟨buf, appended, becomes⟩ :=
    (Buffer.new_sound kInitialSize).append (ascii "GET /\r\n\r\n")
  obtain ⟨grammar, judged, _⟩ := requestLines_are_judged
    HttpRequest.new_method (ascii "GET /") becomes.sound 1
  have outside : ¬ AcceptedLine (ascii "GET /") := by
    obtain ⟨accepted, after, processed, inGrammar⟩ := grammar
    have refused : HttpRequest.new.processRequestLine (ascii "GET /") =
        .ok (false, { HttpRequest.new with method := .kGet }) := rfl
    cases refused.symm.trans processed
    intro member
    cases inGrammar.mpr member
  refine ⟨outside, buf, appended, ?_⟩
  obtain ⟨ok, final, rest, parsed, refuses, kept⟩ := judged
  have cut : cutLine buf.content = some (ascii "GET /", kCRLF) := by
    rw [becomes.content_eq, Buffer.content_new, List.nil_append]
    decide
  have refused := refuses.mpr ⟨_, _, cut, outside⟩
  obtain ⟨rfl, _⟩ := kept refused
  subst refused
  exact ⟨final, parsed⟩

end HttpContext

end Muduo
