import Muduo.Http.ServerAsserts
import Mathlib.Logic.Relation

/-!
# Where the headers end

A turn of the loop in `parseRequest` that goes from `kExpectHeaders` to
`kGotAll` consumes the line that `EndLine` finds: the first one without a colon.
For the stream of a connection this is the line with which the undispatched
bytes end a header block, so the headers end at empty lines alone exactly if
that line is empty whenever there is one.
-/

namespace Muduo

open Relation

/-- The first line without a colon, at which header lines end. -/
inductive EndLine : List Byte → List Byte → Prop where
  | here {bytes line rest : List Byte} :
      cutLine bytes = some (line, rest) →
      colonByte ∉ line →
      EndLine bytes line
  | later {bytes header rest line : List Byte} :
      cutLine bytes = some (header, rest) →
      colonByte ∈ header →
      EndLine rest line →
      EndLine bytes line

/-- The line that ends the headers of a request at the front. -/
def HeaderEnd (bytes line : List Byte) : Prop :=
  ∃ first rest, cutLine bytes = some (first, rest) ∧ AcceptedLine first ∧
    EndLine rest line

theorem EndLine.append {bytes line : List Byte} (ends : EndLine bytes line)
    (more : List Byte) : EndLine (bytes ++ more) line := by
  induction ends with
  | here cut noColon => exact .here (cutLine_append more cut) noColon
  | later cut colon _ induction =>
      exact .later (cutLine_append more cut) colon induction

theorem EndLine.unique {bytes line other : List Byte}
    (ends : EndLine bytes line) (again : EndLine bytes other) :
    line = other := by
  induction ends with
  | here cut noColon =>
      cases again with
      | here cut' _ =>
          cases cut.symm.trans cut'
          rfl
      | later cut' colon _ =>
          cases cut.symm.trans cut'
          exact (noColon colon).elim
  | later cut colon _ induction =>
      cases again with
      | here cut' noColon =>
          cases cut.symm.trans cut'
          exact (noColon colon).elim
      | later cut' _ others =>
          cases cut.symm.trans cut'
          exact induction others

theorem endLine_header_iff {bytes header rest line : List Byte}
    (cut : cutLine bytes = some (header, rest)) (colon : colonByte ∈ header) :
    EndLine bytes line ↔ EndLine rest line := by
  constructor
  · intro ends
    cases ends with
    | here cut' noColon =>
        cases cut.symm.trans cut'
        exact (noColon colon).elim
    | later cut' _ others =>
        cases cut.symm.trans cut'
        exact others
  · exact .later cut colon

theorem headerEnd_accepted_iff {bytes first rest line : List Byte}
    (cut : cutLine bytes = some (first, rest)) (accepted : AcceptedLine first) :
    HeaderEnd bytes line ↔ EndLine rest line := by
  constructor
  · rintro ⟨other, behind, cut', _, ends⟩
    cases cut.symm.trans cut'
    exact ends
  · intro ends
    exact ⟨first, rest, cut, accepted, ends⟩

theorem EndLine.of_none {bytes line : List Byte} (none : cutLine bytes = none) :
    ¬ EndLine bytes line := by
  intro ends
  cases ends with
  | here cut _ => cases none.symm.trans cut
  | later cut _ _ => cases none.symm.trans cut

theorem HeaderEnd.of_none {bytes line : List Byte}
    (none : cutLine bytes = none) : ¬ HeaderEnd bytes line := by
  rintro ⟨_, _, cut, _, _⟩
  cases none.symm.trans cut

theorem HeaderEnd.of_refused {bytes line first rest : List Byte}
    (cut : cutLine bytes = some (first, rest))
    (refused : ¬ AcceptedLine first) : ¬ HeaderEnd bytes line := by
  rintro ⟨_, _, cut', accepted, _⟩
  cases cut.symm.trans cut'
  exact refused accepted

/-- The line that ends the headers when a context goes on with some bytes. -/
def HttpContext.EndsAt (context : HttpContext) (bytes line : List Byte) :
    Prop :=
  match context.state with
  | .kExpectRequestLine => HeaderEnd bytes line
  | .kExpectHeaders => EndLine bytes line
  | .kExpectBody | .kGotAll => False

section Turns

variable {receiveTime : Timestamp}

/-- One turn of the loop in `parseRequest`. -/
def ParseTurn (receiveTime : Timestamp) (loop next : ParseLoop) : Prop :=
  loop.hasMore = true ∧ HttpContext.parseStep receiveTime loop = .ok next

/-- The line in front of the first CRLF. -/
def ParseLoop.line (loop : ParseLoop) : Option (List Byte) :=
  loop.buf.findCRLF.map fun crlf => loop.buf.range loop.buf.peek crlf

/-- A turn that ends the headers with the line it consumes. -/
def EndTurn (receiveTime : Timestamp) (loop : ParseLoop) (line : List Byte) :
    Prop :=
  ∃ next, ParseTurn receiveTime loop next ∧
    loop.context.state = .kExpectHeaders ∧ next.context.state = .kGotAll ∧
    loop.line = some line

theorem turns_of_parseLoop {fuel : Nat} {loop final : ParseLoop}
    (looped : HttpContext.parseLoop receiveTime fuel loop = .ok final) :
    ReflTransGen (ParseTurn receiveTime) loop final := by
  induction fuel generalizing loop with
  | zero =>
      unfold HttpContext.parseLoop at looped
      split at looped
      · cases looped
      · cases looped
        exact .refl
  | succ fuel induction =>
      unfold HttpContext.parseLoop at looped
      split at looped
      · next running =>
          obtain ⟨next, stepped, rest⟩ := bind_eq_ok looped
          exact .head ⟨running, stepped⟩ (induction rest)
      · cases looped
        exact .refl

theorem ParseTurn.lineTurn {context : HttpContext} {buf : Buffer}
    {next : ParseLoop} (sound : buf.Sound) (ready : context.Ready)
    (turn : ParseTurn receiveTime ⟨true, true, context, buf⟩ next) :
    HttpContext.LineTurn receiveTime ⟨true, true, context, buf⟩ next := by
  obtain ⟨other, stepped, lineTurn⟩ :=
    HttpContext.parseStep_lineTurn receiveTime sound ready
  cases turn.2.symm.trans stepped
  exact lineTurn

theorem turns_of_stopped {loop final : ParseLoop}
    (stopped : loop.hasMore = false)
    (turns : ReflTransGen (ParseTurn receiveTime) loop final) :
    final = loop := by
  rcases turns.cases_head with same | ⟨next, turn, _⟩
  · exact same.symm
  · rw [turn.1] at stopped
    cases stopped

theorem EndTurn.running {loop : ParseLoop} {line : List Byte}
    (ends : EndTurn receiveTime loop line) : loop.hasMore = true := by
  obtain ⟨_, turn, _⟩ := ends
  exact turn.1

theorem line_of_cut {loop : ParseLoop} {line rest : List Byte}
    (sound : loop.buf.Sound)
    (cut : cutLine loop.buf.content = some (line, rest)) :
    loop.line = some line := by
  obtain ⟨crlf, _, found, text, _⟩ := sound.findCRLF_some cut
  simp only [ParseLoop.line, found, Option.map_some, text]

/-- A turn to `next` that does not end the headers leaves that to `next`. -/
theorem endTurn_next_iff {loop next : ParseLoop} {line : List Byte}
    (turn : ParseTurn receiveTime loop next)
    (goesOn : next.context.state ≠ .kGotAll) :
    (∃ last, ReflTransGen (ParseTurn receiveTime) loop last ∧
        EndTurn receiveTime last line) ↔
      ∃ last, ReflTransGen (ParseTurn receiveTime) next last ∧
        EndTurn receiveTime last line := by
  constructor
  · rintro ⟨last, turns, ends⟩
    rcases turns.cases_head with rfl | ⟨other, first, rest⟩
    · obtain ⟨other, first, _, gotAll, _⟩ := ends
      cases first.2.symm.trans turn.2
      exact (goesOn gotAll).elim
    · cases first.2.symm.trans turn.2
      exact ⟨last, rest, ends⟩
  · rintro ⟨last, turns, ends⟩
    exact ⟨last, .head turn turns, ends⟩

theorem not_endTurn_of_stopped {loop : ParseLoop} {line : List Byte}
    (stopped : loop.hasMore = false) :
    ¬ ∃ last, ReflTransGen (ParseTurn receiveTime) loop last ∧
      EndTurn receiveTime last line := by
  rintro ⟨last, turns, ends⟩
  rw [turns_of_stopped stopped turns] at ends
  exact Bool.false_ne_true (stopped.symm.trans ends.running)

variable (receiveTime) in
/-- The headers end in the turns from a ready context at the line that its
bytes say, and only there. -/
theorem endTurn_iff {context : HttpContext} {buf : Buffer}
    (sound : buf.Sound) (ready : context.Ready) (line : List Byte) :
    (∃ last, ReflTransGen (ParseTurn receiveTime)
        ⟨true, true, context, buf⟩ last ∧ EndTurn receiveTime last line) ↔
      context.EndsAt buf.content line := by
  generalize length : buf.content.length = size
  induction size using Nat.strong_induction_on generalizing context buf with
  | _ size induction =>
      obtain ⟨next, stepped, lineTurn⟩ :=
        HttpContext.parseStep_lineTurn receiveTime sound ready
      have turn : ParseTurn receiveTime ⟨true, true, context, buf⟩ next :=
        ⟨rfl, stepped⟩
      cases lineTurn with
      | noLine cut =>
          have goesOn : context.state ≠ .kGotAll := by
            cases ready <;> nofun
          have never : ¬ context.EndsAt buf.content line := by
            cases ready with
            | requestLine _ => exact HeaderEnd.of_none cut
            | headers _ => exact EndLine.of_none cut
          rw [endTurn_next_iff turn goesOn]
          exact iff_of_false (not_endTurn_of_stopped rfl) never
      | @refused _ _ _ first rest cut processed =>
          cases ready with
          | requestLine unset =>
              have refused : ¬ AcceptedLine first := by
                intro accepted
                obtain ⟨_, accepts⟩ :=
                  HttpRequest.processed_of_acceptedLine unset accepted
                cases accepts.symm.trans processed
              rw [endTurn_next_iff turn nofun]
              exact iff_of_false (not_endTurn_of_stopped rfl)
                (HeaderEnd.of_refused cut refused)
      | @accepted _ _ _ behind first rest cut processed becomes =>
          cases ready with
          | requestLine unset =>
              have accepted :=
                HttpRequest.acceptedLine_of_processed unset processed
              have content := becomes.content_eq
              have shorter := length_lt_of_cutLine cut
              rw [endTurn_next_iff turn nofun,
                induction _ (by rw [content]; omega) becomes.sound (.headers _)
                  rfl, content]
              exact (headerEnd_accepted_iff cut accepted).symm
      | @header _ _ behind header rest cut colon becomes =>
          have content := becomes.content_eq
          have shorter := length_lt_of_cutLine cut
          rw [endTurn_next_iff turn nofun,
            induction _ (by rw [content]; omega) becomes.sound (.headers _)
              rfl, content]
          exact (endLine_header_iff cut colon).symm
      | @last request _ behind text rest cut noColon becomes =>
          have consumed : ParseLoop.line ⟨true, true,
              ⟨.kExpectHeaders, request⟩, buf⟩ = some text :=
            line_of_cut sound cut
          constructor
          · rintro ⟨last, turns, ends⟩
            rcases turns.cases_head with rfl | ⟨other, first, rest⟩
            · obtain ⟨_, _, _, _, found⟩ := ends
              cases consumed.symm.trans found
              exact .here cut noColon
            · cases first.2.symm.trans turn.2
              exact (not_endTurn_of_stopped rfl ⟨last, rest, ends⟩).elim
          · intro ends
            have same : text = line := (EndLine.here cut noColon).unique ends
            subst same
            exact ⟨_, .refl, _, turn, rfl, rfl, consumed⟩

end Turns

namespace HttpServer

/-- Where the context stands in the undispatched bytes: it is fresh, or it has
parsed them as far as they go. -/
def Follows (pending : List Byte) (context : HttpContext)
    (content : List Byte) : Prop :=
  (context.timeless = .new ∧ content = pending) ∨
    Parses .new pending .incomplete context.timeless content

theorem Follows.resumes {pending content : List Byte} {context : HttpContext}
    (follows : Follows pending context content) :
    Resumes pending context content := by
  rcases follows with ⟨fresh, rfl⟩ | waits
  · exact .fresh fresh content
  · intro more verdict final left parses
    exact waits.resume parses

theorem endsAt_of_incomplete {context middle : HttpContext}
    {bytes rest : List Byte} (ready : context.Ready)
    (parses : Parses context bytes .incomplete middle rest)
    (more line : List Byte) :
    context.EndsAt (bytes ++ more) line ↔
      middle.EndsAt (rest ++ more) line := by
  generalize ended : Verdict.incomplete = verdict at parses
  induction parses with
  | noRequestLine _ => rfl
  | refused _ _ => cases ended
  | requestLine cut processed _ induction =>
      cases ready with
      | requestLine unset =>
          have accepted := HttpRequest.acceptedLine_of_processed unset processed
          rw [← induction (.headers _) ended]
          exact headerEnd_accepted_iff (cutLine_append more cut) accepted
  | noHeader _ => rfl
  | header cut colon _ induction =>
      rw [← induction (.headers _) ended]
      exact endLine_header_iff (cutLine_append more cut) colon
  | complete _ _ => cases ended

theorem Follows.endsAt_iff {pending content : List Byte}
    {context : HttpContext} (follows : Follows pending context content)
    (more line : List Byte) :
    context.EndsAt (content ++ more) line ↔
      HeaderEnd (pending ++ more) line := by
  have timeless : context.EndsAt (content ++ more) line ↔
      context.timeless.EndsAt (content ++ more) line := Iff.rfl
  rw [timeless]
  rcases follows with ⟨fresh, rfl⟩ | waits
  · rw [fresh]
    rfl
  · exact (endsAt_of_incomplete HttpContext.new_ready waits more line).symm

/-- The headers end at a line in the call of `parseRequest` for a chunk. -/
def EndsHeaders (conn : HttpConnection) (chunk : Chunk) (line : List Byte) :
    Prop :=
  ∃ context buf last, conn.link.context = some context ∧
    conn.link.inputBuffer.readFd (.ok chunk.bytes) = .ok buf ∧
    ReflTransGen (ParseTurn chunk.receiveTime) ⟨true, true, context, buf⟩
      last ∧
    EndTurn chunk.receiveTime last line

/-- A connection whose context stands in the pending bytes. -/
def Standing (conn : HttpConnection) (pending : List Byte) : Prop :=
  ∃ context, Serving conn context ∧ context.Ready ∧
    Follows pending context (input conn)

theorem Standing.alive {conn : HttpConnection} {pending : List Byte}
    (standing : Standing conn pending) : Alive conn pending := by
  obtain ⟨context, serving, ready, follows⟩ := standing
  exact ⟨context, serving, ready, follows.resumes⟩

theorem Standing.endsHeaders_iff {conn : HttpConnection}
    {pending : List Byte} (standing : Standing conn pending) (chunk : Chunk)
    (line : List Byte) :
    EndsHeaders conn chunk line ↔
      HeaderEnd (pending ++ chunk.bytes) line := by
  obtain ⟨context, serving, ready, follows⟩ := standing
  obtain ⟨filled, read, becomes⟩ := serving.input_sound.readFd chunk.bytes
  have turns := endTurn_iff chunk.receiveTime becomes.sound ready line
  rw [becomes.content_eq] at turns
  rw [← follows.endsAt_iff]
  refine Iff.trans ?_ turns
  constructor
  · rintro ⟨other, buf, last, here, filled, reached, ends⟩
    cases serving.context_eq.symm.trans here
    cases read.symm.trans filled
    exact ⟨last, reached, ends⟩
  · rintro ⟨last, reached, ends⟩
    exact ⟨context, filled, last, serving.context_eq, read, reached, ends⟩

theorem Stuck.not_endsHeaders {conn : HttpConnection} (stuck : Stuck conn)
    (chunk : Chunk) (line : List Byte) : ¬ EndsHeaders conn chunk line := by
  obtain ⟨request, first, rest, serving, known, cut, spaced⟩ := stuck
  obtain ⟨filled, read, becomes⟩ := serving.input_sound.readFd chunk.bytes
  have grown : cutLine filled.content = some (first, rest ++ chunk.bytes) := by
    rw [becomes.content_eq]
    exact cutLine_append chunk.bytes cut
  have fails : HttpContext.parseStep chunk.receiveTime
      ⟨true, true, ⟨.kExpectRequestLine, request⟩, filled⟩ =
      .error .setMethod :=
    HttpContext.parseStep_failed becomes.sound grown
      (HttpRequest.processRequestLine_set known spaced)
  rintro ⟨context, buf, last, here, again, reached, ends⟩
  cases serving.context_eq.symm.trans here
  cases read.symm.trans again
  rcases reached.cases_head with rfl | ⟨next, turn, _⟩
  · obtain ⟨_, _, expects, _⟩ := ends
    cases expects
  · cases fails.symm.trans turn.2

variable {owner : LinkOwner HttpContext} {httpCallback : HttpCallback}
variable {fd : Int} {highWaterMark : Nat} {writes : List WriteResult}

theorem Standing.receive (calm : owner.Calm) {conn next : HttpConnection}
    {pending : List Byte} (standing : Standing conn pending) {chunk : Chunk}
    (received : receive owner httpCallback conn chunk = .ok next) :
    (∃ rest, CompleteRequest (pending ++ chunk.bytes) rest ∧
        Standing next rest) ∨
      ((∀ rest, ¬ CompleteRequest (pending ++ chunk.bytes) rest) ∧
        (Standing next (pending ++ chunk.bytes) ∨
          (Stuck next ∧ RefusedAfterMethod (pending ++ chunk.bytes)))) := by
  have ways := standing.alive.receive calm received
  obtain ⟨context, serving, ready, follows⟩ := standing
  obtain ⟨verdict, final, parses, servingNext, _⟩ :=
    receive_serving calm serving ready received
  have fresh := follows.resumes _ _ _ _ parses
  cases verdict with
  | complete =>
      exact .inl ⟨input next, Parses.complete_iff.mp ⟨_, fresh⟩, .new,
        servingNext, HttpContext.new_ready, .inl ⟨rfl, rfl⟩⟩
  | incomplete =>
      have readyFinal : final.Ready := HttpContext.timeless_ready.mp
        (parses.ready_of_incomplete (HttpContext.timeless_ready.mpr ready))
      exact .inr ⟨fresh.not_complete (by simp),
        .inl ⟨final, servingNext, readyFinal, .inr fresh⟩⟩
  | refused =>
      have notComplete := fresh.not_complete (by simp)
      obtain ⟨left, _, named | unnamed⟩ := fresh.refused_cases
      · rcases ways with ⟨rest, complete, _⟩ | ⟨_, notRefused, _⟩ | stuck
        · exact (notComplete rest complete).elim
        · exact (notRefused named.1).elim
        · exact .inr ⟨notComplete, .inr ⟨stuck.2, stuck.1⟩⟩
      · obtain ⟨_, timeless⟩ := unnamed
        have readyFinal : final.Ready := HttpContext.timeless_ready.mp
          (timeless ▸ HttpContext.new_ready)
        exact .inr ⟨notComplete, .inl ⟨final, servingNext, readyFinal,
          .inl ⟨timeless, left⟩⟩⟩

/-- A connection follows its undispatched bytes until it is stuck at a refused
line in front of them. -/
theorem standing_or_stuck (calm : owner.Calm) {chunks : List Chunk}
    {pending : List Byte} (undispatched : Undispatched chunks pending)
    {conn : HttpConnection}
    (served : serve owner httpCallback
      (newConnection fd highWaterMark writes) chunks = .ok conn) :
    Standing conn pending ∨ (Stuck conn ∧ RefusedAfterMethod pending) := by
  have base : Standing (newConnection fd highWaterMark writes) [] := by
    refine ⟨.new, newConnection_serving fd highWaterMark writes,
      HttpContext.new_ready, .inl ⟨rfl, input_newConnection _ _ _⟩⟩
  have readStep : ∀ conn pending chunk next,
      Standing conn pending ∨ (Stuck conn ∧ RefusedAfterMethod pending) →
      receive owner httpCallback conn chunk = .ok next →
      (∃ rest, CompleteRequest (pending ++ chunk.bytes) rest ∧
          Standing next rest) ∨
        ((∀ rest, ¬ CompleteRequest (pending ++ chunk.bytes) rest) ∧
          (Standing next (pending ++ chunk.bytes) ∨
            (Stuck next ∧ RefusedAfterMethod (pending ++ chunk.bytes)))) := by
    intro conn pending chunk next reached received
    rcases reached with standing | ⟨stuck, _⟩
    · exact standing.receive calm received
    · cases (stuck.receive_error chunk).symm.trans received
  refine served_invariant (fun conn pending =>
      Standing conn pending ∨ (Stuck conn ∧ RefusedAfterMethod pending))
    (.inl base) ?_ ?_ undispatched served
  · intro conn pending chunk next reached received notComplete
    rcases readStep conn pending chunk next reached received with
      ⟨rest, complete, _⟩ | ⟨_, reached⟩
    · exact (notComplete rest complete).elim
    · exact reached
  · intro conn pending chunk next rest reached received complete
    rcases readStep conn pending chunk next reached received with
      ⟨left, again, standing⟩ | ⟨none, _⟩
    · rw [complete.unique again]
      exact .inl standing
    · exact (none rest complete).elim

theorem endsHeaders_iff (calm : owner.Calm) {chunks : List Chunk}
    {pending : List Byte} (undispatched : Undispatched chunks pending)
    {conn : HttpConnection}
    (served : serve owner httpCallback
      (newConnection fd highWaterMark writes) chunks = .ok conn)
    (chunk : Chunk) (line : List Byte) :
    EndsHeaders conn chunk line ↔
      HeaderEnd (pending ++ chunk.bytes) line := by
  rcases standing_or_stuck calm undispatched served with
    standing | ⟨stuck, refused⟩
  · exact standing.endsHeaders_iff chunk line
  · obtain ⟨first, rest, cut, _, notAccepted⟩ := refused
    exact iff_of_false (stuck.not_endsHeaders chunk line)
      (HeaderEnd.of_refused (cutLine_append chunk.bytes cut) notAccepted)

theorem undispatched_exists (chunks : List Chunk) :
    ∃ pending, Undispatched chunks pending := by
  induction chunks using List.reverseRecOn with
  | nil => exact ⟨[], .nil⟩
  | append_singleton chunks chunk induction =>
      obtain ⟨pending, undispatched⟩ := induction
      by_cases complete : ∃ rest, CompleteRequest (pending ++ chunk.bytes) rest
      · obtain ⟨rest, complete⟩ := complete
        exact ⟨rest, .dispatched undispatched complete⟩
      · have none : ∀ rest, ¬ CompleteRequest (pending ++ chunk.bytes) rest :=
          not_exists.mp complete
        exact ⟨_, .waiting undispatched none⟩

/-- Serving is cut short behind a refused line alone. -/
theorem served_or_refused (calm : owner.Calm) (httpCallback : AppendingCallback)
    (fd : Int) (highWaterMark : Nat) (writes : List WriteResult)
    {chunks : List Chunk} {pending : List Byte}
    (undispatched : Undispatched chunks pending) :
    (∃ conn, serve owner httpCallback
        (newConnection fd highWaterMark writes) chunks = .ok conn) ∨
      RefusedAfterMethod pending := by
  have serves : ∀ {chunks : List Chunk} {pending : List Byte} (chunk : Chunk),
      Undispatched chunks pending →
      (∃ conn, serve owner httpCallback
        (newConnection fd highWaterMark writes) chunks = .ok conn) ∨
        RefusedAfterMethod pending →
      (∃ conn, serve owner httpCallback
        (newConnection fd highWaterMark writes) (chunks ++ [chunk]) =
          .ok conn) ∨
        RefusedAfterMethod (pending ++ chunk.bytes) := by
    intro chunks pending chunk undispatched reached
    rcases reached with ⟨conn, served⟩ | refused
    · rcases standing_or_stuck calm undispatched served with
        standing | ⟨_, refused⟩
      · obtain ⟨next, received⟩ :=
          standing.alive.receive_ok calm httpCallback chunk
        refine .inl ⟨next, ?_⟩
        rw [serve_concat, served, ok_bind, received]
      · exact .inr (refused.append chunk.bytes)
    · exact .inr (refused.append chunk.bytes)
  induction undispatched with
  | nil => exact .inl ⟨_, rfl⟩
  | waiting before _ induction => exact serves _ before induction
  | dispatched before complete induction =>
      rcases serves _ before induction with served | refused
      · exact .inl served
      · exact (refused.not_complete complete).elim

/-- The headers of all requests on a connection end at empty lines if and only
if, whenever the undispatched bytes have a request line and a line without a
colon behind it, the first such line is empty. -/
theorem headers_end_empty_iff (calm : owner.Calm)
    (httpCallback : AppendingCallback) (fd : Int) (highWaterMark : Nat)
    (writes : List WriteResult) (chunks : List Chunk) :
    (∀ before chunk after conn line, chunks = before ++ chunk :: after →
      serve owner httpCallback (newConnection fd highWaterMark writes) before =
        .ok conn →
      EndsHeaders conn chunk line → line = []) ↔
    ∀ before chunk after pending line, chunks = before ++ chunk :: after →
      Undispatched before pending →
      HeaderEnd (pending ++ chunk.bytes) line → line = [] := by
  constructor
  · intro emptyEnds before chunk after pending line split undispatched ends
    rcases served_or_refused calm httpCallback fd highWaterMark writes
      undispatched with ⟨conn, served⟩ | refused
    · apply emptyEnds before chunk after conn line split served
      exact (endsHeaders_iff calm undispatched served chunk line).mpr ends
    · obtain ⟨first, rest, cut, _, notAccepted⟩ := refused
      exact (HeaderEnd.of_refused (cutLine_append chunk.bytes cut) notAccepted
        ends).elim
  · intro emptyEnds before chunk after conn line split served ends
    obtain ⟨pending, undispatched⟩ := undispatched_exists before
    apply emptyEnds before chunk after pending line split undispatched
    exact (endsHeaders_iff calm undispatched served chunk line).mp ends

/-- One header and the empty line. -/
theorem headers_end_empty_iff_one :
    ∃ chunks : List Chunk,
      chunks = [⟨ascii "GET / HTTP/1.1\r\nA: b\r\n\r\n", 1⟩] ∧
      ∀ before chunk after conn line, chunks = before ++ chunk :: after →
        serve silentOwner appendingDefault (newConnection 5 64 []) before =
          .ok conn →
        EndsHeaders conn chunk line → line = [] := by
  refine ⟨_, rfl, ?_⟩
  apply (headers_end_empty_iff silentOwner_quiet.calm appendingDefault 5 64
    [] _).mpr
  intro before chunk after pending line split undispatched headerEnd
  cases before with
  | nil =>
      cases split
      generalize start : ([] : List Chunk) = chunks at undispatched
      cases undispatched with
      | nil =>
          obtain ⟨first, rest, cut, _, ends⟩ := headerEnd
          have line₁ : cutLine ([] ++
              ascii "GET / HTTP/1.1\r\nA: b\r\n\r\n") =
              some (ascii "GET / HTTP/1.1", ascii "A: b\r\n\r\n") := by
            decide +kernel
          have line₂ : cutLine (ascii "A: b\r\n\r\n") =
              some (ascii "A: b", ascii "\r\n") := by
            decide +kernel
          have line₃ : cutLine (ascii "\r\n") = some ([], []) := by
            decide +kernel
          cases line₁.symm.trans cut
          exact ends.unique (.later line₂ (by decide) (.here line₃ (by decide)))
      | waiting _ _ => simp at start
      | dispatched _ _ => simp at start
  | cons _ _ => simp at split

/-- A header line that lacks its colon ends the headers. -/
theorem headers_end_at_text :
    ¬ ∀ before chunk after conn line,
      [⟨ascii "GET / HTTP/1.1\r\nabc\r\n", 1⟩] = before ++ chunk :: after →
      serve silentOwner defaultHttpCallback (newConnection 5 64 []) before =
        .ok conn →
      EndsHeaders conn chunk line → line = [] := by
  intro emptyEnds
  have served : serve silentOwner defaultHttpCallback (newConnection 5 64 [])
      [] = .ok (newConnection 5 64 []) := rfl
  have ends : EndsHeaders (newConnection 5 64 [])
      ⟨ascii "GET / HTTP/1.1\r\nabc\r\n", 1⟩ (ascii "abc") := by
    rw [endsHeaders_iff silentOwner_quiet.calm .nil served]
    have text : cutLine (ascii "abc\r\n") = some (ascii "abc", []) := by
      decide +kernel
    exact ⟨ascii "GET / HTTP/1.1", ascii "abc\r\n", by decide +kernel,
      ⟨.kGet, ascii "/", .kHttp11, by decide, by decide, by decide, rfl⟩,
      .here text (by decide)⟩
  cases emptyEnds [] _ [] _ _ rfl served ends

end HttpServer

end Muduo
