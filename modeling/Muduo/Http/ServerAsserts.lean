import Muduo.Http.Grammar
import Muduo.Http.ServerSteps

/-!
# When the asserts of the server hold

The bytes of a stream that no dispatched request has consumed are
`Undispatched`; they do not mention the parser.  A connection serves its chunks
without a failing assert exactly if it gets none after a chunk with which the
undispatched bytes begin with a line refused after its method: the half-filled
request then meets the assert of `setMethod`.
-/

namespace Muduo

/-- The bytes of the chunks behind the last request dispatched; a chunk leads to
one dispatch at most. -/
inductive Undispatched : List Chunk → List Byte → Prop where
  | nil : Undispatched [] []
  | waiting {chunks : List Chunk} {pending : List Byte} {chunk : Chunk} :
      Undispatched chunks pending →
      (∀ rest, ¬ CompleteRequest (pending ++ chunk.bytes) rest) →
      Undispatched (chunks ++ [chunk]) (pending ++ chunk.bytes)
  | dispatched {chunks : List Chunk} {pending rest : List Byte}
      {chunk : Chunk} :
      Undispatched chunks pending →
      CompleteRequest (pending ++ chunk.bytes) rest →
      Undispatched (chunks ++ [chunk]) rest

/-- A chunk with which the undispatched bytes begin with a line refused after
its method, when `chunks` came before it. -/
def RefusesMethod (chunks : List Chunk) (chunk : Chunk) : Prop :=
  ∃ pending, Undispatched chunks pending ∧
    RefusedAfterMethod (pending ++ chunk.bytes)

namespace HttpServer

/-- What a context makes of further input is what a fresh one makes of all the
pending bytes. -/
def Resumes (pending : List Byte) (context : HttpContext)
    (content : List Byte) : Prop :=
  ∀ more verdict final left,
    Parses context.timeless (content ++ more) verdict final left →
    Parses .new (pending ++ more) verdict final left

theorem Resumes.fresh {context : HttpContext} (fresh : context.timeless = .new)
    (content : List Byte) : Resumes content context content := by
  intro more verdict final left parses
  rwa [fresh] at parses

theorem Resumes.append {pending content : List Byte} {context : HttpContext}
    (resumes : Resumes pending context content) (bytes : List Byte) :
    Resumes (pending ++ bytes) context (content ++ bytes) := by
  intro more verdict final left parses
  rw [List.append_assoc] at parses ⊢
  exact resumes _ _ _ _ parses

theorem Resumes.parses {pending content left : List Byte}
    {context final : HttpContext} {verdict : Verdict}
    (resumes : Resumes pending context content)
    (parses : Parses context.timeless content verdict final left) :
    Parses .new pending verdict final left := by
  have whole := resumes [] verdict final left
  rw [List.append_nil, List.append_nil] at whole
  exact whole parses

theorem Resumes.incomplete {pending content left : List Byte}
    {context final : HttpContext} (resumes : Resumes pending context content)
    (parses : Parses context.timeless content .incomplete final.timeless
      left) : Resumes pending final left := by
  intro more verdict last rest further
  exact resumes _ _ _ _ (parses.resume further)

/-- A connection that may go on, with the pending bytes. -/
def Alive (conn : HttpConnection) (pending : List Byte) : Prop :=
  ∃ context, Serving conn context ∧ context.Ready ∧
    Resumes pending context (input conn)

/-- A connection whose context has stopped after a method. -/
def Stuck (conn : HttpConnection) : Prop :=
  ∃ request line rest, Serving conn ⟨.kExpectRequestLine, request⟩ ∧
    request.method ≠ .kInvalid ∧
    cutLine (input conn) = some (line, rest) ∧ space ∈ line

theorem Alive.context_ne {conn : HttpConnection} {pending : List Byte}
    (alive : Alive conn pending) : conn.link.context ≠ none := by
  obtain ⟨context, serving, _⟩ := alive
  simp [serving.context_eq]

theorem Alive.input_sound {conn : HttpConnection} {pending : List Byte}
    (alive : Alive conn pending) : conn.link.inputBuffer.Sound := by
  obtain ⟨context, serving, _⟩ := alive
  exact serving.input_sound

theorem Stuck.context_ne {conn : HttpConnection} (stuck : Stuck conn) :
    conn.link.context ≠ none := by
  obtain ⟨request, _, _, serving, _⟩ := stuck
  simp [serving.context_eq]

theorem Stuck.input_sound {conn : HttpConnection} (stuck : Stuck conn) :
    conn.link.inputBuffer.Sound := by
  obtain ⟨request, _, _, serving, _⟩ := stuck
  exact serving.input_sound

variable {owner : LinkOwner HttpContext} {httpCallback : HttpCallback}

theorem newConnection_alive (fd : Int) (highWaterMark : Nat)
    (writes : List WriteResult) :
    Alive (newConnection fd highWaterMark writes) [] := by
  refine ⟨.new, newConnection_serving fd highWaterMark writes,
    HttpContext.new_ready, ?_⟩
  rw [input_newConnection]
  exact .fresh rfl []

theorem Alive.grown {conn : HttpConnection} {pending bytes : List Byte}
    (alive : Alive conn pending) {filled : Buffer} (sound : filled.Sound)
    (content : input (grown conn filled) = input conn ++ bytes) :
    Alive (grown conn filled) (pending ++ bytes) := by
  obtain ⟨context, serving, ready, resumes⟩ := alive
  refine ⟨context, serving.grown sound, ready, ?_⟩
  rw [content]
  exact resumes.append bytes

theorem Stuck.grown {conn : HttpConnection} {bytes : List Byte}
    (stuck : Stuck conn) {filled : Buffer} (sound : filled.Sound)
    (content : input (grown conn filled) = input conn ++ bytes) :
    Stuck (grown conn filled) := by
  obtain ⟨request, line, rest, serving, known, cut, spaced⟩ := stuck
  refine ⟨request, line, rest ++ bytes, serving.grown sound, known, ?_, spaced⟩
  rw [content]
  exact cutLine_append bytes cut

theorem Stuck.rcvMessage_error {conn : HttpConnection} (stuck : Stuck conn)
    (receiveTime : Timestamp) :
    rcvMessage owner httpCallback conn receiveTime = .error .setMethod := by
  obtain ⟨request, line, rest, serving, known, cut, spaced⟩ := stuck
  exact rcvMessage_setMethod serving known cut spaced receiveTime

theorem Stuck.receive_error {conn : HttpConnection} (stuck : Stuck conn)
    (chunk : Chunk) :
    receive owner httpCallback conn chunk = .error .setMethod := by
  obtain ⟨filled, _, soundFilled, content, received⟩ :=
    receive_eq stuck.input_sound chunk
  rw [received]
  exact (stuck.grown soundFilled content).rcvMessage_error chunk.receiveTime

/-- The three ways a call of `rcvMessage` goes on a connection that is alive. -/
inductive Way (conn : HttpConnection) (pending : List Byte)
    (next : HttpConnection) : Prop where
  | complete {final : HttpContext} {rest : List Byte} :
      Parses .new pending .complete final.timeless rest →
      Alive next rest →
      next.dispatched = conn.dispatched ++ [final.request] →
      Way conn pending next
  | waiting :
      (∀ rest, ¬ CompleteRequest pending rest) →
      ¬ RefusedAfterMethod pending → Alive next pending →
      next.dispatched = conn.dispatched → Way conn pending next
  | refused :
      RefusedAfterMethod pending → Stuck next →
      next.dispatched = conn.dispatched → Way conn pending next

theorem Alive.rcvMessage (calm : owner.Calm) {conn next : HttpConnection}
    {pending : List Byte} (alive : Alive conn pending)
    {receiveTime : Timestamp}
    (received : rcvMessage owner httpCallback conn receiveTime = .ok next) :
    Way conn pending next := by
  obtain ⟨context, serving, ready, resumes⟩ := alive
  obtain ⟨verdict, final, parses, servingNext, dispatched⟩ :=
    rcvMessage_serving calm serving ready received
  have fresh := resumes.parses parses
  have nothing : verdict ≠ .complete →
      next.dispatched = conn.dispatched := by
    intro other
    rw [dispatched, dispatchedBy, if_neg other, List.append_nil]
  cases verdict with
  | complete =>
      exact .complete fresh
        ⟨.new, servingNext, HttpContext.new_ready, .fresh rfl _⟩ dispatched
  | incomplete =>
      have readyFinal : final.Ready := HttpContext.timeless_ready.mp
        (parses.ready_of_incomplete (HttpContext.timeless_ready.mpr ready))
      exact .waiting (fresh.not_complete (by simp))
        (fresh.not_refusedAfterMethod (by simp))
        ⟨final, servingNext, readyFinal, resumes.incomplete parses⟩
        (nothing (by simp))
  | refused =>
      obtain ⟨left, state, named | unnamed⟩ := fresh.refused_cases
      · obtain ⟨refused, known⟩ := named
        have shape := refused
        obtain ⟨line, rest, cut, named, _⟩ := shape
        have spaced := ((HttpRequest.methodLine_iff line).mp named).1
        have expects : final.state = .kExpectRequestLine := state
        have servingStuck : Serving next
            ⟨.kExpectRequestLine, final.request⟩ := by
          rw [← expects]
          exact servingNext
        exact .refused refused ⟨final.request, line, rest, servingStuck,
          known, left ▸ cut, spaced⟩ (nothing (by simp))
      · obtain ⟨notRefusedHere, timeless⟩ := unnamed
        have readyFinal : final.Ready := HttpContext.timeless_ready.mp
          (timeless ▸ HttpContext.new_ready)
        refine .waiting (fresh.not_complete (by simp)) notRefusedHere
          ⟨final, servingNext, readyFinal, ?_⟩ (nothing (by simp))
        rw [left]
        exact .fresh timeless _

theorem Alive.rcvMessage_fault (calm : owner.Calm) {conn : HttpConnection}
    {pending : List Byte} (alive : Alive conn pending)
    {receiveTime : Timestamp} {fault : Fault}
    (failed : HttpServer.rcvMessage owner httpCallback conn receiveTime =
      .error fault) :
    ∃ req, (httpCallback conn.dispatched req
      (.new (closes req))).appendToBuffer (.new kInitialSize) =
        .error fault := by
  obtain ⟨context, serving, ready, _⟩ := alive
  exact HttpServer.rcvMessage_fault calm serving ready failed

theorem Alive.receive_fault (calm : owner.Calm) {conn : HttpConnection}
    {pending : List Byte} (alive : Alive conn pending) {chunk : Chunk}
    {fault : Fault}
    (failed : receive owner httpCallback conn chunk = .error fault) :
    ∃ req, (httpCallback conn.dispatched req
      (.new (closes req))).appendToBuffer (.new kInitialSize) =
        .error fault := by
  obtain ⟨context, serving, ready, _⟩ := alive
  exact HttpServer.receive_fault calm serving ready failed

theorem Alive.rcvMessage_ok (calm : owner.Calm) (callback : AppendingCallback)
    {conn : HttpConnection} {pending : List Byte}
    (alive : Alive conn pending) (receiveTime : Timestamp) :
    ∃ next, HttpServer.rcvMessage owner callback conn receiveTime = .ok next :=
  completes_of_appending callback fun _ => alive.rcvMessage_fault calm

theorem Alive.receive_ok (calm : owner.Calm) (callback : AppendingCallback)
    {conn : HttpConnection} {pending : List Byte}
    (alive : Alive conn pending) (chunk : Chunk) :
    ∃ next, receive owner callback conn chunk = .ok next :=
  completes_of_appending callback fun _ => alive.receive_fault calm

/-- The three ways a read goes, if it completes. -/
theorem Alive.receive (calm : owner.Calm) {conn next : HttpConnection}
    {pending : List Byte} (alive : Alive conn pending) {chunk : Chunk}
    (result : receive owner httpCallback conn chunk = .ok next) :
    (∃ rest, CompleteRequest (pending ++ chunk.bytes) rest ∧
        Alive next rest) ∨
      ((∀ rest, ¬ CompleteRequest (pending ++ chunk.bytes) rest) ∧
        ¬ RefusedAfterMethod (pending ++ chunk.bytes) ∧
        Alive next (pending ++ chunk.bytes)) ∨
      (RefusedAfterMethod (pending ++ chunk.bytes) ∧ Stuck next) := by
  obtain ⟨filled, _, soundFilled, content, received⟩ :=
    receive_eq alive.input_sound chunk
  rw [received] at result
  cases (alive.grown soundFilled content).rcvMessage calm result with
  | complete parses aliveNext _ =>
      exact .inl ⟨_, Parses.complete_iff.mp ⟨_, parses⟩, aliveNext⟩
  | waiting notComplete notRefused aliveNext _ =>
      exact .inr (.inl ⟨notComplete, notRefused, aliveNext⟩)
  | refused refused stuck _ => exact .inr (.inr ⟨refused, stuck⟩)

theorem serve_concat (conn : HttpConnection) (chunks : List Chunk)
    (chunk : Chunk) :
    serve owner httpCallback conn (chunks ++ [chunk]) =
      serve owner httpCallback conn chunks >>= fun conn =>
        receive owner httpCallback conn chunk := by
  simp [serve]

section Stream

variable {fd : Int} {highWaterMark : Nat} {writes : List WriteResult}

/-- What every read keeps of a connection and its undispatched bytes holds
after serving. -/
theorem served_invariant (property : HttpConnection → List Byte → Prop)
    (base : property (newConnection fd highWaterMark writes) [])
    (waiting : ∀ conn pending chunk next, property conn pending →
      receive owner httpCallback conn chunk = .ok next →
      (∀ rest, ¬ CompleteRequest (pending ++ chunk.bytes) rest) →
      property next (pending ++ chunk.bytes))
    (dispatched : ∀ conn pending chunk next rest, property conn pending →
      receive owner httpCallback conn chunk = .ok next →
      CompleteRequest (pending ++ chunk.bytes) rest → property next rest)
    {chunks : List Chunk} {pending : List Byte}
    (undispatched : Undispatched chunks pending) {conn : HttpConnection}
    (served : serve owner httpCallback
      (newConnection fd highWaterMark writes) chunks = .ok conn) :
    property conn pending := by
  induction undispatched generalizing conn with
  | nil =>
      cases served
      exact base
  | waiting _ notComplete induction =>
      rw [serve_concat] at served
      obtain ⟨before, servedBefore, received⟩ := bind_eq_ok served
      exact waiting _ _ _ _ (induction servedBefore) received notComplete
  | dispatched _ complete induction =>
      rw [serve_concat] at served
      obtain ⟨before, servedBefore, received⟩ := bind_eq_ok served
      exact dispatched _ _ _ _ _ (induction servedBefore) received complete

theorem alive_or_stuck (calm : owner.Calm) {chunks : List Chunk}
    {pending : List Byte} (undispatched : Undispatched chunks pending)
    {conn : HttpConnection}
    (served : serve owner httpCallback
      (newConnection fd highWaterMark writes) chunks = .ok conn) :
    Alive conn pending ∨ Stuck conn := by
  refine served_invariant (fun conn pending => Alive conn pending ∨ Stuck conn)
    (.inl (newConnection_alive fd highWaterMark writes)) ?_ ?_ undispatched
    served
  · intro conn pending chunk next reached received notComplete
    rcases reached with alive | stuck
    · rcases alive.receive calm received with
        ⟨rest, complete, _⟩ | ⟨_, _, alive⟩ | ⟨_, stuck⟩
      · exact (notComplete rest complete).elim
      · exact .inl alive
      · exact .inr stuck
    · cases (stuck.receive_error chunk).symm.trans received
  · intro conn pending chunk next rest reached received complete
    rcases reached with alive | stuck
    · rcases alive.receive calm received with
        ⟨left, again, alive⟩ | ⟨none, _⟩ | ⟨refused, _⟩
      · rw [complete.unique again]
        exact .inl alive
      · exact (none rest complete).elim
      · exact (refused.not_complete complete).elim
    · cases (stuck.receive_error chunk).symm.trans received

/-- Unless a chunk follows a refusal, serving goes on. -/
private theorem serves (calm : owner.Calm) (httpCallback : AppendingCallback)
    (chunks : List Chunk)
    (undisturbed : ∀ before chunk later after,
      chunks = before ++ chunk :: later :: after →
      ¬ RefusesMethod before chunk) :
    ∃ conn, serve owner httpCallback
        (newConnection fd highWaterMark writes) chunks = .ok conn ∧
      ((∃ pending, Undispatched chunks pending ∧ Alive conn pending) ∨
        ∃ before chunk, chunks = before ++ [chunk] ∧
          RefusesMethod before chunk) := by
  induction chunks using List.reverseRecOn with
  | nil => exact ⟨_, rfl, .inl ⟨[], .nil, newConnection_alive _ _ _⟩⟩
  | append_singleton chunks chunk induction =>
      have earlier : ∀ before chunk later after,
          chunks = before ++ chunk :: later :: after →
          ¬ RefusesMethod before chunk := by
        intro before refusing later after split
        refine undisturbed before refusing later (after ++ [chunk]) ?_
        simp [split]
      obtain ⟨conn, served, reached⟩ := induction earlier
      rcases reached with
        ⟨pending, undispatched, alive⟩ | ⟨before, refusing, rfl, refuses⟩
      · obtain ⟨next, result⟩ := alive.receive_ok calm httpCallback chunk
        refine ⟨next, ?_, ?_⟩
        · rw [serve_concat, served, ok_bind, result]
        · rcases alive.receive calm result with
            ⟨rest, complete, alive⟩ | ⟨none, _, alive⟩ | ⟨refused, _⟩
          · exact .inl ⟨rest, .dispatched undispatched complete, alive⟩
          · exact .inl ⟨_, .waiting undispatched none, alive⟩
          · exact .inr ⟨chunks, chunk, rfl, pending, undispatched, refused⟩
      · exact (undisturbed before refusing chunk [] (by simp) refuses).elim

/-- A connection of the server takes the chunks of a stream without a failing
assert if and only if no chunk follows one with which the undispatched bytes
begin with a complete line that names a method and is not a request line. -/
theorem serve_ok_iff (calm : owner.Calm) (httpCallback : AppendingCallback)
    (fd : Int) (highWaterMark : Nat) (writes : List WriteResult)
    (chunks : List Chunk) :
    (∃ conn, serve owner httpCallback
      (newConnection fd highWaterMark writes) chunks = .ok conn) ↔
    ∀ before chunk later after,
      chunks = before ++ chunk :: later :: after →
      ¬ RefusesMethod before chunk := by
  constructor
  · rintro ⟨conn, served⟩ before chunk later after rfl
      ⟨pending, undispatched, refused⟩
    have split : before ++ chunk :: later :: after =
        before ++ [chunk] ++ [later] ++ after := by simp
    rw [split, serve, List.foldlM_append] at served
    obtain ⟨third, served, _⟩ := bind_eq_ok served
    rw [← serve, serve_concat] at served
    obtain ⟨second, served, receivedLater⟩ := bind_eq_ok served
    rw [serve_concat] at served
    obtain ⟨first, served, received⟩ := bind_eq_ok served
    rcases alive_or_stuck calm undispatched served with alive | stuck
    · rcases alive.receive calm received with
        ⟨_, complete, _⟩ | ⟨_, notRefused, _⟩ | ⟨_, stuck⟩
      · exact refused.not_complete complete
      · exact notRefused refused
      · cases (stuck.receive_error later).symm.trans receivedLater
    · cases (stuck.receive_error chunk).symm.trans received
  · intro undisturbed
    obtain ⟨conn, served, _⟩ :=
      serves calm httpCallback chunks undisturbed
    exact ⟨conn, served⟩

/-- A request cut in its request line, then a refused one. -/
theorem serve_ok_iff_three :
    (∃ conn, serve silentOwner appendingDefault (newConnection 5 64 [])
      [⟨ascii "GET /a HTTP/1.1\r", 1⟩, ⟨ascii "\n\r\n", 2⟩,
        ⟨ascii "GET /\r\n", 3⟩] = .ok conn) ∧
    ¬ RefusesMethod [] ⟨ascii "GET /a HTTP/1.1\r", 1⟩ := by
  have served : ∃ conn, serve silentOwner appendingDefault
      (newConnection 5 64 []) [⟨ascii "GET /a HTTP/1.1\r", 1⟩,
        ⟨ascii "\n\r\n", 2⟩, ⟨ascii "GET /\r\n", 3⟩] = .ok conn := by
    have completed : (serve silentOwner appendingDefault
        (newConnection 5 64 []) [⟨ascii "GET /a HTTP/1.1\r", 1⟩,
          ⟨ascii "\n\r\n", 2⟩, ⟨ascii "GET /\r\n", 3⟩]).map
        (fun _ => ()) = .ok () := by
      decide +kernel
    obtain ⟨conn, served, _⟩ := exists_of_map_eq_ok completed
    exact ⟨conn, served⟩
  exact ⟨served, (serve_ok_iff silentOwner_quiet.calm appendingDefault
    5 64 [] _ |>.mp served) [] _ _ _ rfl⟩

/-- Two chunks: a request line with another version, and any byte after it. -/
theorem serve_second_chunk_fails :
    serve silentOwner defaultHttpCallback (newConnection 5 64 [])
      [⟨ascii "GET / HTTP/2.0\r\n", 1⟩, ⟨ascii "x", 2⟩] =
      .error .setMethod := by
  have failed : (serve silentOwner defaultHttpCallback
      (newConnection 5 64 []) [⟨ascii "GET / HTTP/2.0\r\n", 1⟩,
        ⟨ascii "x", 2⟩]).map (fun _ => ()) = .error .setMethod := by
    decide +kernel
  exact eq_error_of_map failed

end Stream

end HttpServer

end Muduo
