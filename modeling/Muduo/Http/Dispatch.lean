import Muduo.Http.ServerAsserts

/-!
# Dispatch and the cuts of a stream

The requests of a stream that are complete in its first bytes are those that
`arrived`.  A call of `rcvMessage` dispatches one request at most, so the
requests dispatched are the ones that arrived exactly as long as no single chunk
completes two of them.
-/

namespace Muduo

namespace RequestText

/-- The bytes of requests sent one after the other. -/
def stream (texts : List RequestText) : List Byte :=
  texts.flatMap render

/-- The requests complete in the first `size` bytes of their stream. -/
def arrived : List RequestText → Nat → List RequestText
  | [], _ => []
  | text :: texts, size =>
      if text.render.length ≤ size then
        text :: arrived texts (size - text.render.length)
      else []

theorem stream_append (done todo : List RequestText) :
    stream (done ++ todo) = stream done ++ stream todo :=
  List.flatMap_append

theorem arrived_append (done todo : List RequestText) (size : Nat) :
    arrived (done ++ todo) ((stream done).length + size) =
      done ++ arrived todo size := by
  induction done with
  | nil => simp [stream]
  | cons text done induction =>
      have total : (stream (text :: done)).length + size =
          text.render.length + ((stream done).length + size) := by
        simp only [stream, List.flatMap_cons, List.length_append]
        omega
      rw [List.cons_append, arrived, total, if_pos (Nat.le_add_right _ _),
        Nat.add_sub_cancel_left, induction, List.cons_append]

theorem exists_of_arrived {texts : List RequestText} {size : Nat}
    (some : arrived texts size ≠ []) :
    ∃ text others, texts = text :: others ∧ text.render.length ≤ size := by
  cases texts with
  | nil => exact (some rfl).elim
  | cons text others =>
      refine ⟨text, others, rfl, ?_⟩
      by_cases fits : text.render.length ≤ size
      · exact fits
      · exact (some (if_neg fits)).elim

theorem incomplete_of_arrived_nil {texts : List RequestText}
    {bytes left : List Byte} {verdict : Verdict} {final : HttpContext}
    (front : bytes <+: stream texts) (none : arrived texts bytes.length = [])
    (parses : Parses .new bytes verdict final left) :
    verdict = .incomplete := by
  cases texts with
  | nil =>
      have empty : bytes = [] := List.prefix_nil.mp front
      subst empty
      exact (parses.unique (.noRequestLine rfl)).1
  | cons text texts =>
      by_cases fits : text.render.length ≤ bytes.length
      · simp [arrived, fits] at none
      · have inside : bytes <+: text.render := by
          apply List.prefix_of_prefix_length_le front
          · exact List.prefix_append text.render (stream texts)
          · omega
        obtain ⟨more, split⟩ := inside
        by_cases waiting : verdict = .incomplete
        · exact waiting
        · have whole := text.parses []
          rw [List.append_nil, ← split] at whole
          obtain ⟨_, _, nothing⟩ :=
            (parses.append waiting more).unique whole
          obtain ⟨_, rfl⟩ := List.append_eq_nil_iff.mp nothing
          rw [← split, List.append_nil] at fits
          exact (fits (Nat.le_refl _)).elim

end RequestText

open RequestText

/-- No chunk completes more than one request of the stream. -/
def OneAtATime (texts : List RequestText) (chunks : List Chunk) : Prop :=
  ∀ before chunk after, chunks = before ++ chunk :: after →
    (arrived texts (Chunk.joined (before ++ [chunk])).length).length ≤
      (arrived texts (Chunk.joined before).length).length + 1

theorem Chunk.joined_concat (chunks : List Chunk) (chunk : Chunk) :
    joined (chunks ++ [chunk]) = joined chunks ++ chunk.bytes := by
  simp [joined]

namespace HttpServer

/-- A connection that has dispatched what arrived of a stream. -/
structure Following (texts : List RequestText) (received : List Byte)
    (conn : HttpConnection) (done todo : List RequestText)
    (pending : List Byte) : Prop where
  texts_eq : texts = done ++ todo
  received_eq : received = stream done ++ pending
  none_arrived : arrived todo pending.length = []
  dispatched_eq : conn.dispatched.map HttpRequest.timeless =
    done.map request
  alive : Alive conn pending

theorem Following.arrived_eq {texts done todo : List RequestText}
    {received pending : List Byte} {conn : HttpConnection}
    (following : Following texts received conn done todo pending) :
    arrived texts received.length = done := by
  rw [following.texts_eq, following.received_eq, List.length_append,
    arrived_append, following.none_arrived, List.append_nil]

variable {owner : LinkOwner HttpContext} {httpCallback : HttpCallback}

/-- A chunk that completes one request at most is followed. -/
theorem Following.receive (calm : owner.Calm)
    {texts done todo : List RequestText} {received pending : List Byte}
    {conn next : HttpConnection}
    (following : Following texts received conn done todo pending)
    {chunk : Chunk} (front : received ++ chunk.bytes <+: stream texts)
    (one : (arrived texts (received ++ chunk.bytes).length).length ≤
      done.length + 1)
    (result : receive owner httpCallback conn chunk = .ok next) :
    ∃ done todo pending,
      Following texts (received ++ chunk.bytes) next done todo pending := by
  obtain ⟨rfl, rfl, _, dispatched, context, serving, ready, resumes⟩ :=
    following
  obtain ⟨verdict, final, parses, servingNext, more⟩ :=
    receive_serving calm serving ready result
  have fresh := resumes _ _ _ _ parses
  have ahead : pending ++ chunk.bytes <+: stream todo := by
    rw [stream_append, List.append_assoc] at front
    exact (List.prefix_append_right_inj _).mp front
  rw [List.append_assoc, List.length_append, arrived_append,
    List.length_append] at one
  by_cases none : arrived todo (pending ++ chunk.bytes).length = []
  · obtain rfl := incomplete_of_arrived_nil ahead none fresh
    have readyFinal : final.Ready := HttpContext.timeless_ready.mp
      (parses.ready_of_incomplete (HttpContext.timeless_ready.mpr ready))
    refine ⟨done, todo, pending ++ chunk.bytes, rfl, ?_, none,
      ?_, final, servingNext, readyFinal,
      (resumes.append chunk.bytes).incomplete parses⟩
    · rw [List.append_assoc]
    · rw [more]
      simpa [dispatchedBy] using dispatched
  · obtain ⟨text, others, rfl, fits⟩ := exists_of_arrived none
    obtain ⟨left, split⟩ : text.render <+: pending ++ chunk.bytes :=
      List.prefix_of_prefix_length_le (List.prefix_append _ (stream others))
        ahead fits
    have whole := text.parses left
    rw [split] at whole
    obtain ⟨rfl, timeless, rest⟩ := fresh.unique whole
    have request : final.request.timeless = text.request :=
      congrArg HttpContext.request timeless
    have rest_none : arrived others left.length = [] := by
      have size : (pending ++ chunk.bytes).length =
          text.render.length + left.length := by
        rw [← split, List.length_append]
      rw [arrived, size, if_pos (Nat.le_add_right _ _),
        Nat.add_sub_cancel_left] at one
      apply List.eq_nil_of_length_eq_zero
      simp only [List.length_cons] at one
      omega
    refine ⟨done ++ [text], others, left, ?_, ?_, rest_none,
      ?_, .new, servingNext, HttpContext.new_ready, ?_⟩
    · simp
    · rw [List.append_assoc, ← split, stream_append]
      simp [stream]
    · rw [more, List.map_append, dispatched]
      simp [dispatchedBy, request]
    · rw [rest]
      exact .fresh rfl left

theorem receive_dispatches {conn next : HttpConnection} {chunk : Chunk}
    (received : receive owner httpCallback conn chunk = .ok next) :
    next.dispatched.length ≤ conn.dispatched.length + 1 := by
  obtain ⟨inputBuffer, _, received⟩ := bind_eq_ok received
  unfold rcvMessage at received
  split at received
  · cases received
    exact Nat.le_succ _
  · obtain ⟨⟨ok, context, buffer⟩, _, received⟩ := bind_eq_ok received
    obtain ⟨link, _, received⟩ := bind_eq_ok received
    unfold dispatchIf at received
    split at received
    · obtain ⟨answered, called, received⟩ := bind_eq_ok received
      obtain ⟨buf, _, called⟩ := bind_eq_ok called
      obtain ⟨sent, _, called⟩ := bind_eq_ok called
      cases called
      cases received
      simp
    · cases received
      exact Nat.le_succ _

variable {fd : Int} {highWaterMark : Nat} {writes : List WriteResult}

/-- A connection follows a stream that comes one request at a time. -/
private theorem serve_following (calm : owner.Calm)
    (httpCallback : AppendingCallback) (texts : List RequestText)
    (chunks : List Chunk)
    (front : Chunk.joined chunks <+: stream texts)
    (one : OneAtATime texts chunks) :
    ∃ conn done todo pending, serve owner httpCallback
        (newConnection fd highWaterMark writes) chunks = .ok conn ∧
      Following texts (Chunk.joined chunks) conn done todo pending := by
  induction chunks using List.reverseRecOn with
  | nil =>
      have nothing : arrived texts 0 = [] := by
        cases texts with
        | nil => rfl
        | cons text texts =>
            have positive : ¬ text.render.length ≤ 0 := by
              simp [render, requestLine]
            exact if_neg positive
      exact ⟨_, [], texts, [], rfl, rfl, rfl, nothing, rfl,
        newConnection_alive fd highWaterMark writes⟩
  | append_singleton chunks chunk induction =>
      rw [Chunk.joined_concat] at front
      have oneEarlier : OneAtATime texts chunks := by
        intro before earlier after split
        refine one before earlier (after ++ [chunk]) ?_
        simp [split]
      obtain ⟨conn, done, todo, pending, served, following⟩ :=
        induction ((List.prefix_append _ _).trans front) oneEarlier
      have last := one chunks chunk [] rfl
      rw [following.arrived_eq, Chunk.joined_concat] at last
      obtain ⟨next, result⟩ :=
        following.alive.receive_ok calm httpCallback chunk
      obtain ⟨done, todo, pending, follows⟩ :=
        following.receive calm front last result
      refine ⟨next, done, todo, pending, ?_, ?_⟩
      · rw [serve_concat, served, ok_bind, result]
      · rwa [Chunk.joined_concat]

/-- After every chunk of a stream of requests, the requests dispatched are
those complete in the bytes received, if and only if no chunk completes more
than one request. -/
theorem dispatched_eq_arrived_iff (calm : owner.Calm)
    (httpCallback : AppendingCallback) (fd : Int) (highWaterMark : Nat)
    (writes : List WriteResult) {texts : List RequestText}
    {chunks : List Chunk} (whole : Chunk.joined chunks = stream texts) :
    (∀ before, before <+: chunks →
      ∃ conn, serve owner httpCallback
          (newConnection fd highWaterMark writes) before = .ok conn ∧
        conn.dispatched.map HttpRequest.timeless =
          (arrived texts (Chunk.joined before).length).map request) ↔
    OneAtATime texts chunks := by
  constructor
  · rintro follows before chunk after rfl
    obtain ⟨conn, served, dispatched⟩ :=
      follows before (List.prefix_append _ _)
    obtain ⟨next, servedNext, dispatchedNext⟩ :=
      follows (before ++ [chunk]) ⟨after, by simp⟩
    rw [serve_concat, served, ok_bind] at servedNext
    have more := receive_dispatches servedNext
    have size := congrArg List.length dispatched
    have sizeNext := congrArg List.length dispatchedNext
    simp only [List.length_map] at size sizeNext
    omega
  · rintro one before ⟨after, rfl⟩
    have front : Chunk.joined before <+: stream texts := by
      rw [← whole, Chunk.joined, Chunk.joined, List.flatMap_append]
      exact List.prefix_append _ _
    have oneBefore : OneAtATime texts before := by
      intro earlier chunk later split
      refine one earlier chunk (later ++ after) ?_
      simp [split]
    obtain ⟨conn, done, todo, pending, served, following⟩ :=
      serve_following calm httpCallback texts before front oneBefore
    refine ⟨conn, served, ?_⟩
    rw [following.arrived_eq, following.dispatched_eq]

/-- `GET / HTTP/1.1` without headers. -/
def getRoot : RequestText where
  method := .kGet
  target := ascii "/"
  version := .kHttp11
  headers := []
  method_known := by decide
  version_known := by decide
  target_no_space := by decide
  target_no_crlf := no_crlf_of_no_cr (by decide)

/-- Two requests, cut between CR and LF and inside the second one. -/
def threeChunks : List Chunk :=
  [⟨getRoot.render.take 15, 1⟩,
    ⟨getRoot.render.drop 15 ++ getRoot.render.take 4, 2⟩,
    ⟨getRoot.render.drop 4, 3⟩]

theorem dispatched_eq_arrived_three :
    ∃ conn, serve silentOwner appendingDefault (newConnection 5 64 [])
        threeChunks = .ok conn ∧
      conn.dispatched.map HttpRequest.timeless =
        [getRoot.request, getRoot.request] := by
  have whole : Chunk.joined threeChunks = stream [getRoot, getRoot] := by
    decide
  have one : OneAtATime [getRoot, getRoot] threeChunks := by
    intro before chunk after split
    have bound : before.length < 3 := by
      have size := congrArg List.length split
      simp only [threeChunks, List.length_cons, List.length_append,
        List.length_nil] at size
      omega
    have front : before = threeChunks.take before.length := by
      rw [split, List.take_left]
    have longer : before ++ [chunk] =
        threeChunks.take (before.length + 1) := by
      rw [split, List.take_append, List.take_of_length_le (Nat.le_succ _)]
      simp
    rw [longer]
    generalize before.length = count at bound front
    subst front
    have counted : ∀ count < 3,
        (arrived [getRoot, getRoot] (Chunk.joined
          (threeChunks.take (count + 1))).length).length ≤
        (arrived [getRoot, getRoot] (Chunk.joined
          (threeChunks.take count)).length).length + 1 := by
      decide
    exact counted count bound
  obtain ⟨conn, served, dispatched⟩ :=
    (dispatched_eq_arrived_iff silentOwner_quiet.calm appendingDefault
      5 64 [] whole).mpr one threeChunks (List.prefix_refl _)
  refine ⟨conn, served, dispatched.trans ?_⟩
  rfl

/-- Two requests that arrive in one chunk: the connection stays open, but one
of them is dispatched only. -/
theorem dispatch_of_two_in_one_chunk :
    Chunk.joined [⟨stream [getRoot, getRoot], 1⟩] =
      stream [getRoot, getRoot] ∧
    arrived [getRoot, getRoot] (stream [getRoot, getRoot]).length =
      [getRoot, getRoot] ∧
    ∃ conn, serve silentOwner (fun _ _ response => response)
        (newConnection 5 64 []) [⟨stream [getRoot, getRoot], 1⟩] =
        .ok conn ∧
      conn.link.connected = true ∧
      conn.dispatched.map HttpRequest.timeless = [getRoot.request] ∧
      input conn = getRoot.render := by
  refine ⟨by decide, rfl, ?_⟩
  have result : (serve silentOwner (fun _ _ response => response)
      (newConnection 5 64 []) [⟨stream [getRoot, getRoot], 1⟩]).map
      (fun conn => (conn.link.connected,
        conn.dispatched.map HttpRequest.timeless, input conn)) =
      .ok (true, [getRoot.request], getRoot.render) := by
    decide +kernel
  obtain ⟨conn, served, projected⟩ := exists_of_map_eq_ok result
  obtain ⟨connected, dispatched, left⟩ := Prod.ext_iff.mp projected |>.imp id
    Prod.ext_iff.mp
  exact ⟨conn, served, connected, dispatched, left⟩

end HttpServer

end Muduo
