import Muduo.Http.Parsing

/-!
# Parsing in pieces

`feed` appends chunks one by one and calls `parseRequest` after each, until a
call refuses the request line or completes the request.  What it reaches is
what one call on all the bytes reaches.
-/

namespace Muduo

/-- What one read delivers, and when. -/
structure Chunk where
  bytes : List Byte
  receiveTime : Timestamp
  deriving DecidableEq

/-- The bytes of a list of chunks. -/
def Chunk.joined (chunks : List Chunk) : List Byte :=
  chunks.flatMap Chunk.bytes

/-- What feeding chunks leaves. -/
structure Feeding where
  ok : Bool
  context : HttpContext
  buf : Buffer
  unfed : List Chunk

namespace HttpContext

def feed (context : HttpContext) (buf : Buffer) :
    List Chunk → Checked Feeding
  | [] => .ok { ok := true, context, buf, unfed := [] }
  | chunk :: chunks => do
      let buf ← buf.append chunk.bytes
      let (ok, context, buf) ← context.parseRequest buf chunk.receiveTime
      if !ok ∨ context.gotAll then
        return { ok, context, buf, unfed := chunks }
      else feed context buf chunks

/-- Two contexts whose requests may differ in their receive time only. -/
structure SameParse (context other : HttpContext) : Prop where
  gotAll : context.gotAll = other.gotAll
  state : context.state = other.state
  method : context.request.method = other.request.method
  version : context.request.version = other.request.version
  path : context.request.path = other.request.path
  query : context.request.query = other.request.query
  headers : context.request.headers = other.request.headers

theorem sameParse_of_timeless {context other : HttpContext}
    (same : context.timeless = other.timeless) :
    context.SameParse other := by
  simp only [timeless, HttpRequest.timeless, mk.injEq,
    HttpRequest.mk.injEq] at same
  obtain ⟨state, method, version, path, query, _, headers⟩ := same
  have gotAll : context.gotAll = other.gotAll := by
    simp only [HttpContext.gotAll, state]
  exact ⟨gotAll, state, method, version, path, query, headers⟩

/-- Feeding a context that waits on its buffer is one parse of everything. -/
theorem feed_parses {context : HttpContext} {buf : Buffer}
    (ready : context.Ready) (sound : buf.Sound)
    (waiting : Parses context.timeless buf.content .incomplete
      context.timeless buf.content) (chunks : List Chunk) :
    ∃ fed verdict, context.feed buf chunks = .ok fed ∧
      fed.ok = verdict.ok ∧ fed.buf.Sound ∧
      Parses context.timeless (buf.content ++ Chunk.joined chunks) verdict
        fed.context.timeless (fed.buf.content ++ Chunk.joined fed.unfed) := by
  induction chunks generalizing context buf with
  | nil =>
      refine ⟨⟨true, context, buf, []⟩, .incomplete, rfl, rfl, sound, ?_⟩
      simpa [Chunk.joined] using waiting
  | cons chunk chunks induction =>
      obtain ⟨filled, appended, becomes⟩ := sound.append chunk.bytes
      obtain ⟨verdict, after, rest, parsed, soundRest, parses⟩ :=
        parseRequest_parses ready becomes.sound chunk.receiveTime
      rw [becomes.content_eq] at parses
      have joined : buf.content ++ Chunk.joined (chunk :: chunks) =
          buf.content ++ chunk.bytes ++ Chunk.joined chunks := by
        simp [Chunk.joined]
      have gotAll : after.gotAll = (verdict == .complete) := parses.gotAll_eq
      rw [joined]
      simp only [feed, appended, parsed, ok_bind, gotAll]
      cases verdict with
      | incomplete =>
          have readyAfter : after.Ready :=
            timeless_ready.mp
              (parses.ready_of_incomplete (timeless_ready.mpr ready))
          obtain ⟨fed, outcome, result, ok, soundFed, others⟩ :=
            induction readyAfter soundRest parses.idle_of_incomplete
          exact ⟨fed, outcome, result, ok, soundFed, parses.resume others⟩
      | refused =>
          exact ⟨⟨false, after, rest, chunks⟩, .refused, rfl, rfl, soundRest,
            parses.append (by decide) _⟩
      | complete =>
          exact ⟨⟨true, after, rest, chunks⟩, .complete, rfl, rfl, soundRest,
            parses.append (by decide) _⟩

theorem new_idle (initialSize : Nat) :
    Parses new.timeless (Buffer.new initialSize).content .incomplete
      new.timeless (Buffer.new initialSize).content := by
  rw [Buffer.content_new]
  exact .noRequestLine rfl

/-- Feeding the chunks of a stream to a fresh context, until a call returns
false or completes the request, gives what one call on the whole stream gives:
the value returned, the parser state and the request, and the bytes left. -/
theorem feed_eq_parseRequest (piecewiseSize wholeSize : Nat)
    (chunks : List Chunk) (receiveTime : Timestamp) :
    ∃ fed whole context rest,
      new.feed (.new piecewiseSize) chunks = .ok fed ∧
      (Buffer.new wholeSize).append (Chunk.joined chunks) = .ok whole ∧
      new.parseRequest whole receiveTime = .ok (fed.ok, context, rest) ∧
      fed.context.SameParse context ∧
      fed.buf.content ++ Chunk.joined fed.unfed = rest.content := by
  obtain ⟨fed, verdict, result, ok, _, piecewise⟩ :=
    feed_parses new_ready (Buffer.new_sound piecewiseSize)
      (new_idle piecewiseSize) chunks
  obtain ⟨whole, appended, becomes⟩ :=
    (Buffer.new_sound wholeSize).append (Chunk.joined chunks)
  obtain ⟨other, context, rest, parsed, _, oneShot⟩ :=
    parseRequest_parses new_ready becomes.sound receiveTime
  rw [becomes.content_eq, Buffer.content_new] at oneShot
  rw [Buffer.content_new] at piecewise
  obtain ⟨same, contexts, left⟩ := piecewise.unique oneShot
  refine ⟨fed, whole, context, rest, result, appended, ?_,
    sameParse_of_timeless contexts, left⟩
  rw [parsed, ok, same]

end HttpContext

end Muduo
