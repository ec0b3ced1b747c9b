import Muduo.Http.Context

/-!
# What parsing does to a byte sequence

`Parses` describes a call of `parseRequest` by the content of the buffer alone:
which lines it consumes, how it ends, which context it leaves and which bytes.
The receive time is left out.  `parseRequest_parses` connects it to the code;
the lemmas about growing content are what feeding a parser in pieces needs.
-/

namespace Muduo

open Library

/-- How a call of `parseRequest` ends. -/
inductive Verdict where
  | incomplete
  | refused
  | complete
  deriving DecidableEq, Repr

/-- The value that `parseRequest` returns. -/
def Verdict.ok : Verdict → Bool
  | .refused => false
  | _ => true

/-- The first line and the bytes behind its CRLF. -/
def cutLine (bytes : List Byte) : Option (List Byte × List Byte) :=
  cutAt kCRLF bytes

theorem cutLine_eq_some {bytes line rest : List Byte}
    (cut : cutLine bytes = some (line, rest)) :
    bytes = line ++ kCRLF ++ rest := by
  rw [List.append_assoc]
  exact (cutAt_eq_some cut).1

theorem length_lt_of_cutLine {bytes line rest : List Byte}
    (cut : cutLine bytes = some (line, rest)) :
    rest.length < bytes.length := by
  have positive : kCRLF.length = 2 := rfl
  rw [cutLine_eq_some cut, List.length_append, List.length_append]
  omega

theorem cutLine_append {bytes line rest : List Byte} (more : List Byte)
    (cut : cutLine bytes = some (line, rest)) :
    cutLine (bytes ++ more) = some (line, rest ++ more) :=
  cutAt_append more cut

theorem cutLine_line {line : List Byte} (absent : ¬ kCRLF <:+: line)
    (rest : List Byte) :
    cutLine (line ++ kCRLF ++ rest) = some (line, rest) := by
  have different : (0x0d : Byte) ≠ 0x0a := by decide
  rw [List.append_assoc]
  exact cutAt_pair different absent rest

namespace Buffer.Sound

variable {b : Buffer}

theorem findCRLF_none (sound : b.Sound) (none : cutLine b.content = none) :
    b.findCRLF = .none := by
  have whole : searchIndex kCRLF b.content = b.content.length := by
    have bound := searchIndex_le_length kCRLF b.content
    by_cases found : searchIndex kCRLF b.content < b.content.length
    · simp [cutLine, cutAt, found] at none
    · omega
  have atEnd : b.peek + searchIndex kCRLF (b.range b.peek b.beginWrite) =
      b.beginWrite := by
    have ordered := sound.reader_le_writer
    rw [← Buffer.content, whole, sound.length_content]
    simp only [readableBytes, peek, beginWrite]
    omega
  simp only [findCRLF, if_pos atEnd]

/-- A line of the content is found, is the range up to the CRLF found, and may
be retrieved together with the CRLF. -/
theorem findCRLF_some (sound : b.Sound) {line rest : List Byte}
    (cut : cutLine b.content = some (line, rest)) :
    ∃ crlf after, b.findCRLF = some crlf ∧ b.range b.peek crlf = line ∧
      b.retrieveUntil (crlf + 2) = .ok after ∧ b.Becomes after rest := by
  obtain ⟨split, length⟩ := cutAt_eq_some cut
  have size : kCRLF.length = 2 := rfl
  have total : b.content.length = line.length + 2 + rest.length := by
    rw [split, List.length_append, List.length_append]
    omega
  have readable := sound.length_content
  have fits : line.length + 2 ≤ b.readableBytes := by omega
  obtain ⟨after, retrieved, becomes⟩ := sound.retrieveUntil fits
  have inside : b.peek + line.length ≠ b.beginWrite := by
    simp only [readableBytes, peek, beginWrite] at fits ⊢
    omega
  refine ⟨b.peek + line.length, after, ?_, ?_, retrieved, ?_⟩
  · rw [length, Buffer.content] at inside ⊢
    simp only [findCRLF, if_neg inside]
  · have front : b.content.take line.length =
        b.range b.peek (b.peek + line.length) :=
      take_window b.buffer (by
        simp only [readableBytes, peek, beginWrite] at fits ⊢
        omega)
    rw [← front, split, List.take_left]
  · have behind : b.content.drop (line.length + 2) = rest := by
      rw [split, ← List.drop_drop, List.drop_left]
      rfl
    rwa [behind] at becomes

end Buffer.Sound

namespace HttpRequest

variable {request after : HttpRequest} {line : List Byte} {accepted : Bool}

theorem setMethod_unset (unset : request.method = .kInvalid)
    (m : List Byte) :
    request.setMethod m = .ok (methodOf m ≠ .kInvalid,
      { request with method := methodOf m }) := by
  simp [setMethod, unset, pure, Except.pure]

theorem processRequestLine_unset (unset : request.method = .kInvalid)
    (line : List Byte) :
    ∃ accepted after,
      request.processRequestLine line = .ok (accepted, after) := by
  simp only [processRequestLine]
  split
  · exact ⟨_, _, rfl⟩
  · rw [setMethod_unset unset, ok_bind]
    simp only
    split
    · split
      · exact ⟨_, _, rfl⟩
      · exact ⟨_, _, rfl⟩
    · exact ⟨_, _, rfl⟩

theorem timeless_setTarget (target : List Byte) :
    (request.setTarget target).timeless =
      request.timeless.setTarget target := by
  simp only [setTarget]
  split <;> rfl

theorem timeless_setVersionText (text : List Byte) :
    request.timeless.setVersionText text =
      ((request.setVersionText text).1,
        (request.setVersionText text).2.timeless) := by
  simp only [setVersionText]
  split
  · split
    · rfl
    · split <;> rfl
  · rfl

theorem processRequestLine_timeless (unset : request.method = .kInvalid)
    (processed : request.processRequestLine line = .ok (accepted, after)) :
    request.timeless.processRequestLine line =
      .ok (accepted, after.timeless) := by
  have unset' : request.timeless.method = .kInvalid := unset
  simp only [processRequestLine] at processed ⊢
  split at processed
  · next noSpace =>
      cases processed
      rw [if_pos noSpace]
      rfl
  · next oneSpace =>
      rw [setMethod_unset unset, ok_bind] at processed
      rw [if_neg oneSpace, setMethod_unset unset', ok_bind]
      simp only at processed ⊢
      split at processed
      · next known =>
          rw [if_pos known]
          split at processed
          · next noSecond =>
              cases processed
              rw [if_pos noSecond]
              rfl
          · next second =>
              rw [if_neg second]
              obtain ⟨rfl, rfl⟩ := Prod.ext_iff.mp (Except.ok.inj processed)
              apply congrArg Except.ok
              rw [← timeless_setVersionText, timeless_setTarget]
              rfl
      · next unknown =>
          cases processed
          rw [if_neg unknown]
          rfl

end HttpRequest

/-- What a call of `parseRequest` does to the bytes it finds. -/
inductive Parses :
    HttpContext → List Byte → Verdict → HttpContext → List Byte → Prop where
  | noRequestLine {request : HttpRequest} {bytes : List Byte} :
      cutLine bytes = none →
      Parses ⟨.kExpectRequestLine, request⟩ bytes .incomplete
        ⟨.kExpectRequestLine, request⟩ bytes
  | refused {request after : HttpRequest} {bytes line rest : List Byte} :
      cutLine bytes = some (line, rest) →
      request.processRequestLine line = .ok (false, after) →
      Parses ⟨.kExpectRequestLine, request⟩ bytes .refused
        ⟨.kExpectRequestLine, after⟩ bytes
  | requestLine {request after : HttpRequest} {bytes line rest : List Byte}
      {verdict : Verdict} {final : HttpContext} {left : List Byte} :
      cutLine bytes = some (line, rest) →
      request.processRequestLine line = .ok (true, after) →
      Parses ⟨.kExpectHeaders, after⟩ rest verdict final left →
      Parses ⟨.kExpectRequestLine, request⟩ bytes verdict final left
  | noHeader {request : HttpRequest} {bytes : List Byte} :
      cutLine bytes = none →
      Parses ⟨.kExpectHeaders, request⟩ bytes .incomplete
        ⟨.kExpectHeaders, request⟩ bytes
  | header {request : HttpRequest} {bytes line rest : List Byte}
      {verdict : Verdict} {final : HttpContext} {left : List Byte} :
      cutLine bytes = some (line, rest) →
      colonByte ∈ line →
      Parses ⟨.kExpectHeaders,
        request.addHeader line (line.idxOf colonByte)⟩ rest verdict final
        left →
      Parses ⟨.kExpectHeaders, request⟩ bytes verdict final left
  | complete {request : HttpRequest} {bytes line rest : List Byte} :
      cutLine bytes = some (line, rest) →
      colonByte ∉ line →
      Parses ⟨.kExpectHeaders, request⟩ bytes .complete
        ⟨.kGotAll, request⟩ rest

/-- The contexts in which `parseRequest` may be called: they expect a line, and
a request line only for a request that has no method yet. -/
inductive HttpContext.Ready : HttpContext → Prop where
  | requestLine {request : HttpRequest} :
      request.method = .kInvalid → Ready ⟨.kExpectRequestLine, request⟩
  | headers (request : HttpRequest) : Ready ⟨.kExpectHeaders, request⟩

theorem HttpContext.new_ready : HttpContext.new.Ready :=
  .requestLine rfl

namespace Parses

variable {context final : HttpContext} {bytes left : List Byte}
variable {verdict : Verdict}

theorem unique (parses : Parses context bytes verdict final left)
    {verdict' : Verdict} {final' : HttpContext} {left' : List Byte}
    (other : Parses context bytes verdict' final' left') :
    verdict = verdict' ∧ final = final' ∧ left = left' := by
  induction parses with
  | noRequestLine none =>
      cases other with
      | noRequestLine _ => exact ⟨rfl, rfl, rfl⟩
      | refused cut _ => cases none.symm.trans cut
      | requestLine cut _ _ => cases none.symm.trans cut
  | refused cut refuses =>
      cases other with
      | noRequestLine none => cases none.symm.trans cut
      | refused cut' refuses' =>
          cases cut.symm.trans cut'
          cases refuses.symm.trans refuses'
          exact ⟨rfl, rfl, rfl⟩
      | requestLine cut' accepts' _ =>
          cases cut.symm.trans cut'
          cases refuses.symm.trans accepts'
  | requestLine cut accepts _ induction =>
      cases other with
      | noRequestLine none => cases none.symm.trans cut
      | refused cut' refuses' =>
          cases cut.symm.trans cut'
          cases accepts.symm.trans refuses'
      | requestLine cut' accepts' others' =>
          cases cut.symm.trans cut'
          cases accepts.symm.trans accepts'
          exact induction others'
  | noHeader none =>
      cases other with
      | noHeader _ => exact ⟨rfl, rfl, rfl⟩
      | header cut _ _ => cases none.symm.trans cut
      | complete cut _ => cases none.symm.trans cut
  | header cut colon _ induction =>
      cases other with
      | noHeader none => cases none.symm.trans cut
      | header cut' _ others' =>
          cases cut.symm.trans cut'
          exact induction others'
      | complete cut' noColon =>
          cases cut.symm.trans cut'
          exact (noColon colon).elim
  | complete cut noColon =>
      cases other with
      | noHeader none => cases none.symm.trans cut
      | header cut' colon _ =>
          cases cut.symm.trans cut'
          exact (noColon colon).elim
      | complete cut' _ =>
          cases cut.symm.trans cut'
          exact ⟨rfl, rfl, rfl⟩

/-- An outcome that was reached does not change when bytes are appended. -/
theorem append (parses : Parses context bytes verdict final left)
    (reached : verdict ≠ .incomplete) (more : List Byte) :
    Parses context (bytes ++ more) verdict final (left ++ more) := by
  induction parses with
  | noRequestLine _ => exact (reached rfl).elim
  | refused cut refuses => exact .refused (cutLine_append more cut) refuses
  | requestLine cut accepts _ induction =>
      exact .requestLine (cutLine_append more cut) accepts
        (induction reached)
  | noHeader _ => exact (reached rfl).elim
  | header cut colon _ induction =>
      exact .header (cutLine_append more cut) colon (induction reached)
  | complete cut noColon =>
      exact .complete (cutLine_append more cut) noColon

/-- Parsing resumed on more bytes is parsing everything from the start. -/
theorem resume {middle : HttpContext} {rest more : List Byte}
    (first : Parses context bytes .incomplete middle rest)
    (second : Parses middle (rest ++ more) verdict final left) :
    Parses context (bytes ++ more) verdict final left := by
  generalize ended : Verdict.incomplete = waiting at first
  induction first with
  | noRequestLine _ => exact second
  | refused _ _ => cases ended
  | requestLine cut accepts _ induction =>
      exact .requestLine (cutLine_append more cut) accepts
        (induction second ended)
  | noHeader _ => exact second
  | header cut colon _ induction =>
      exact .header (cutLine_append more cut) colon (induction second ended)
  | complete _ _ => cases ended

theorem ready_of_incomplete (ready : context.Ready)
    (parses : Parses context bytes .incomplete final left) :
    final.Ready := by
  generalize ended : Verdict.incomplete = waiting at parses
  induction parses with
  | noRequestLine _ => exact ready
  | refused _ _ => cases ended
  | requestLine _ _ _ induction => exact induction (.headers _) ended
  | noHeader _ => exact ready
  | header _ _ _ induction => exact induction (.headers _) ended
  | complete _ _ => cases ended

theorem idle_of_incomplete
    (parses : Parses context bytes .incomplete final left) :
    Parses final left .incomplete final left := by
  generalize ended : Verdict.incomplete = waiting at parses
  induction parses with
  | noRequestLine none => exact .noRequestLine none
  | refused _ _ => cases ended
  | requestLine _ _ _ induction => exact induction ended
  | noHeader none => exact .noHeader none
  | header _ _ _ induction => exact induction ended
  | complete _ _ => cases ended

theorem gotAll_eq (parses : Parses context bytes verdict final left) :
    final.gotAll = (verdict == .complete) := by
  induction parses with
  | noRequestLine _ => rfl
  | refused _ _ => rfl
  | requestLine _ _ _ induction => exact induction
  | noHeader _ => rfl
  | header _ _ _ induction => exact induction
  | complete _ _ => rfl

end Parses

namespace HttpContext

variable {receiveTime : Timestamp}

theorem processHeaderLine_colon {request : HttpRequest} {line : List Byte}
    (colon : colonByte ∈ line) :
    processHeaderLine request line = ⟨.kExpectHeaders,
      request.addHeader line (line.idxOf colonByte)⟩ := by
  have inside := List.idxOf_lt_length_iff.mpr colon
  rw [processHeaderLine, if_pos (Nat.ne_of_lt inside)]

theorem processHeaderLine_last {request : HttpRequest} {line : List Byte}
    (noColon : colonByte ∉ line) :
    processHeaderLine request line = ⟨.kGotAll, request⟩ := by
  have outside := List.idxOf_eq_length_iff.mpr noColon
  rw [processHeaderLine, if_neg (not_not_intro outside)]

theorem parseLoop_stopped {fuel : Nat} {loop : ParseLoop}
    (stopped : loop.hasMore = false) :
    parseLoop receiveTime fuel loop = .ok loop := by
  unfold parseLoop
  simp [stopped]

/-- A turn of the loop, as far as a ready context and a sound buffer allow. -/
inductive LineTurn (receiveTime : Timestamp) : ParseLoop → ParseLoop → Prop
    where
  | noLine {context : HttpContext} {buf : Buffer} :
      cutLine buf.content = none →
      LineTurn receiveTime ⟨true, true, context, buf⟩
        ⟨true, false, context, buf⟩
  | refused {request after : HttpRequest} {buf : Buffer}
      {line rest : List Byte} :
      cutLine buf.content = some (line, rest) →
      request.processRequestLine line = .ok (false, after) →
      LineTurn receiveTime ⟨true, true, ⟨.kExpectRequestLine, request⟩, buf⟩
        ⟨false, false, ⟨.kExpectRequestLine, after⟩, buf⟩
  | accepted {request after : HttpRequest} {buf behind : Buffer}
      {line rest : List Byte} :
      cutLine buf.content = some (line, rest) →
      request.processRequestLine line = .ok (true, after) →
      buf.Becomes behind rest →
      LineTurn receiveTime ⟨true, true, ⟨.kExpectRequestLine, request⟩, buf⟩
        ⟨true, true, ⟨.kExpectHeaders, after.setReceiveTime receiveTime⟩,
          behind⟩
  | header {request : HttpRequest} {buf behind : Buffer}
      {line rest : List Byte} :
      cutLine buf.content = some (line, rest) →
      colonByte ∈ line →
      buf.Becomes behind rest →
      LineTurn receiveTime ⟨true, true, ⟨.kExpectHeaders, request⟩, buf⟩
        ⟨true, true, ⟨.kExpectHeaders,
          request.addHeader line (line.idxOf colonByte)⟩, behind⟩
  | last {request : HttpRequest} {buf behind : Buffer}
      {line rest : List Byte} :
      cutLine buf.content = some (line, rest) →
      colonByte ∉ line →
      buf.Becomes behind rest →
      LineTurn receiveTime ⟨true, true, ⟨.kExpectHeaders, request⟩, buf⟩
        ⟨true, false, ⟨.kGotAll, request⟩, behind⟩

/-- A ready context with a sound buffer passes every assert of a turn. -/
theorem parseStep_lineTurn (receiveTime : Timestamp) {context : HttpContext}
    {buf : Buffer} (sound : buf.Sound) (ready : context.Ready) :
    ∃ next, parseStep receiveTime ⟨true, true, context, buf⟩ = .ok next ∧
      LineTurn receiveTime ⟨true, true, context, buf⟩ next := by
  cases cut : cutLine buf.content with
  | none =>
      have missing := sound.findCRLF_none cut
      refine ⟨⟨true, false, context, buf⟩, ?_, .noLine cut⟩
      cases ready with
      | requestLine _ => simp [parseStep, missing, ParseLoop.stop]
      | headers _ => simp [parseStep, missing, ParseLoop.stop]
  | some pair =>
      obtain ⟨line, rest⟩ := pair
      obtain ⟨crlf, behind, found, text, retrieved, becomes⟩ :=
        sound.findCRLF_some cut
      cases ready with
      | @requestLine request unset =>
          obtain ⟨accepted, after, processed⟩ :=
            request.processRequestLine_unset unset line
          cases accepted with
          | false =>
              refine ⟨_, ?_, .refused cut processed⟩
              simp [parseStep, found, text, processed, pure, Except.pure]
          | true =>
              refine ⟨_, ?_, .accepted cut processed becomes⟩
              simp [parseStep, found, text, processed, retrieved, pure,
                Except.pure]
      | headers request =>
          by_cases colon : colonByte ∈ line
          · refine ⟨_, ?_, .header cut colon becomes⟩
            simp [parseStep, found, text, retrieved, gotAll,
              processHeaderLine_colon colon, pure, Except.pure]
          · refine ⟨_, ?_, .last cut colon becomes⟩
            simp [parseStep, found, text, retrieved, gotAll,
              processHeaderLine_last colon, pure, Except.pure]

theorem parseLoop_step {fuel : Nat} {loop next : ParseLoop}
    (running : loop.hasMore = true)
    (stepped : parseStep receiveTime loop = .ok next) :
    parseLoop receiveTime (fuel + 1) loop =
      parseLoop receiveTime fuel next := by
  rw [parseLoop, if_pos running]
  simp only [stepped, ok_bind]

/-- The loop ends, passes every assert and does what `Parses` says; every turn
but the last one consumes a line, so the fuel suffices. -/
theorem parseLoop_parses (receiveTime : Timestamp) {fuel : Nat}
    {context : HttpContext} {buf : Buffer}
    (enough : buf.content.length < fuel) (sound : buf.Sound)
    (ready : context.Ready) :
    ∃ verdict final rest,
      parseLoop receiveTime fuel
          { ok := true, hasMore := true, context, buf } =
        .ok { ok := verdict.ok, hasMore := false, context := final
              buf := rest } ∧
      rest.Sound ∧
      Parses context.timeless buf.content verdict final.timeless
        rest.content := by
  induction fuel generalizing context buf with
  | zero => omega
  | succ fuel induction =>
      obtain ⟨next, stepped, turn⟩ :=
        parseStep_lineTurn receiveTime sound ready
      rw [parseLoop_step rfl stepped]
      cases turn with
      | noLine cut =>
          refine ⟨.incomplete, context, buf, parseLoop_stopped rfl, sound, ?_⟩
          cases ready with
          | requestLine _ => exact .noRequestLine cut
          | headers _ => exact .noHeader cut
      | @refused request after _ _ _ cut processed =>
          cases ready with
          | requestLine unset =>
              exact ⟨.refused, ⟨.kExpectRequestLine, after⟩, buf,
                parseLoop_stopped rfl, sound, .refused cut
                  (request.processRequestLine_timeless unset processed)⟩
      | @accepted request after _ behind _ _ cut processed becomes =>
          have less : behind.content.length < fuel := by
            have shorter := length_lt_of_cutLine cut
            rw [becomes.content_eq]
            omega
          obtain ⟨verdict, final, left, looped, soundLeft, others⟩ :=
            induction less becomes.sound (.headers _)
          rw [becomes.content_eq] at others
          cases ready with
          | requestLine unset =>
              exact ⟨verdict, final, left, looped, soundLeft, .requestLine cut
                (request.processRequestLine_timeless unset processed) others⟩
      | @header request _ behind _ _ cut colon becomes =>
          have less : behind.content.length < fuel := by
            have shorter := length_lt_of_cutLine cut
            rw [becomes.content_eq]
            omega
          obtain ⟨verdict, final, left, looped, soundLeft, others⟩ :=
            induction less becomes.sound (.headers _)
          rw [becomes.content_eq] at others
          exact ⟨verdict, final, left, looped, soundLeft,
            .header cut colon others⟩
      | @last request _ behind _ _ cut noColon becomes =>
          refine ⟨.complete, ⟨.kGotAll, request⟩, behind,
            parseLoop_stopped rfl, becomes.sound, ?_⟩
          rw [becomes.content_eq]
          exact .complete cut noColon

/-- A ready context parses any sound buffer without a failing assert. -/
theorem parseRequest_parses {context : HttpContext} (ready : context.Ready)
    {buf : Buffer} (sound : buf.Sound) (receiveTime : Timestamp) :
    ∃ verdict final rest,
      context.parseRequest buf receiveTime = .ok (verdict.ok, final, rest) ∧
      rest.Sound ∧
      Parses context.timeless buf.content verdict final.timeless
        rest.content := by
  have enough : buf.content.length < buf.readableBytes + 1 := by
    rw [sound.length_content]
    omega
  obtain ⟨verdict, final, rest, looped, soundLeft, parses⟩ :=
    parseLoop_parses receiveTime enough sound ready
  refine ⟨verdict, final, rest, ?_, soundLeft, parses⟩
  simp only [parseRequest, looped, ok_bind]
  rfl

theorem timeless_ready {context : HttpContext} :
    context.timeless.Ready ↔ context.Ready := by
  constructor
  · intro ready
    obtain ⟨state, request⟩ := context
    cases ready with
    | requestLine unset => exact .requestLine unset
    | headers _ => exact .headers _
  · intro ready
    cases ready with
    | requestLine unset => exact .requestLine unset
    | headers _ => exact .headers _

end HttpContext

end Muduo
