import Muduo.Http.Server

/-!
# Appending a response

`appendToBuffer` leaves of each string what passes through the `int` of a
`StringPiece`.  A response whose strings are short and fit into memory is appended
as it is; the append of another one may stop at an assert, throw or return with a
cut response.
-/

namespace Muduo

open Buffer Buffer.SizeT

namespace HttpResponse

/-- The bytes of a response. -/
def bytes (response : HttpResponse) : List Byte := response.pieces.flatten

/-- The bytes that `appendToBuffer` appends. -/
def appended (response : HttpResponse) : List Byte :=
  response.pieces.flatMap passed

/-- Short strings, few enough of them to fit into memory. -/
structure Sized (response : HttpResponse) : Prop where
  pieces : ∀ piece ∈ response.pieces, piece.length < 2 ^ 31
  total : response.bytes.length < 2 ^ 61

instance Sized.decidable (response : HttpResponse) :
    Decidable response.Sized :=
  decidable_of_iff ((∀ piece ∈ response.pieces, piece.length < 2 ^ 31) ∧
      response.bytes.length < 2 ^ 61)
    ⟨fun all => ⟨all.1, all.2⟩, fun all => ⟨all.pieces, all.total⟩⟩

end HttpResponse

/-- A callback with whose responses every call of `appendToBuffer` returns. -/
structure AppendingCallback where
  respond : HttpCallback
  appends : ∀ dispatched req close, ∃ after,
    (respond dispatched req (.new close)).appendToBuffer (.new kInitialSize) =
      .ok after

instance : Coe AppendingCallback HttpCallback where
  coe callback := callback.respond

namespace HttpResponse

variable {limit : Nat} {output after : Buffer} {response : HttpResponse}

theorem appendPieces_cons {piece : List Byte} {pieces : List (List Byte)}
    (returned : appendPieces limit output (piece :: pieces) =
      .ok (.returned, after)) :
    ∃ next, appendString limit output piece = .ok (.returned, next) ∧
      appendPieces limit next pieces = .ok (.returned, after) := by
  obtain ⟨⟨completion, next⟩, first, rest⟩ := bind_eq_ok returned
  cases completion with
  | threw => cases rest
  | returned => exact ⟨next, first, rest⟩

theorem appendPieces_concat {pieces : List (List Byte)} {last : List Byte}
    (returned : appendPieces limit output (pieces ++ [last]) =
      .ok (.returned, after)) :
    ∃ before, appendPieces limit output pieces = .ok (.returned, before) ∧
      appendString limit before last = .ok (.returned, after) := by
  induction pieces generalizing output with
  | nil =>
      obtain ⟨next, first, rest⟩ := appendPieces_cons returned
      cases rest
      exact ⟨output, rfl, first⟩
  | cons piece pieces induction =>
      obtain ⟨next, first, rest⟩ := appendPieces_cons returned
      obtain ⟨before, middle, final⟩ := induction rest
      refine ⟨before, ?_, final⟩
      simp only [appendPieces, first, ok_bind]
      exact middle

/-- What is appended by a run through the pieces that returns. -/
theorem appendPieces_returned (held : Held limit output)
    {pieces : List (List Byte)}
    (small : ∀ piece ∈ pieces, piece.length < 2 ^ 63)
    (returned : appendPieces limit output pieces = .ok (.returned, after)) :
    (∀ piece ∈ pieces, truncated piece ≤ piece.length) ∧ Held limit after ∧
      after.content = output.content ++ pieces.flatMap passed := by
  induction pieces generalizing output with
  | nil =>
      cases returned
      refine ⟨?_, held, by simp⟩
      intro piece member
      cases member
  | cons piece pieces induction =>
      obtain ⟨next, first, rest⟩ := appendPieces_cons returned
      obtain ⟨within, nextHeld, content⟩ := appendString_returned held
        (small piece List.mem_cons_self) first
      have others : ∀ other ∈ pieces, other.length < 2 ^ 63 := by
        intro other member
        exact small other (List.mem_cons_of_mem piece member)
      obtain ⟨lengths, afterHeld, more⟩ := induction nextHeld others rest
      refine ⟨?_, afterHeld, ?_⟩
      · intro other member
        rcases List.mem_cons.mp member with rfl | later
        · exact within
        · exact lengths other later
      · rw [more, content, List.flatMap_cons, List.append_assoc]
        rfl

theorem appendPieces_fits (held : Held limit output)
    {pieces : List (List Byte)}
    (within : ∀ piece ∈ pieces, truncated piece ≤ piece.length)
    (room : output.content.length + 2 * (pieces.flatMap passed).length +
      kCheapPrepend ≤ limit) :
    ∃ after, appendPieces limit output pieces = .ok (.returned, after) ∧
      after.content = output.content ++ pieces.flatMap passed := by
  induction pieces generalizing output with
  | nil => exact ⟨output, rfl, by simp⟩
  | cons piece pieces induction =>
      rw [List.flatMap_cons, List.length_append] at room
      obtain ⟨next, first, nextHeld, content⟩ := appendString_fits held
        (within piece List.mem_cons_self) (by omega)
      have others : ∀ other ∈ pieces, truncated other ≤ other.length := by
        intro other member
        exact within other (List.mem_cons_of_mem piece member)
      have roomLeft : next.content.length +
          2 * (pieces.flatMap passed).length + kCheapPrepend ≤ limit := by
        rw [content, List.length_append]
        omega
      obtain ⟨after, rest, more⟩ := induction nextHeld others roomLeft
      refine ⟨after, ?_, ?_⟩
      · simp only [appendPieces, first, ok_bind]
        exact rest
      · rw [more, content, List.flatMap_cons, List.append_assoc]

theorem appendPieces_fault {pieces : List (List Byte)} {fault : Fault}
    (failed : appendPieces limit output pieces = .error fault) :
    fault ∈ appendFaults := by
  induction pieces generalizing output with
  | nil => cases failed
  | cons piece pieces induction =>
      rcases bind_eq_error failed with first | ⟨⟨completion, next⟩, _, rest⟩
      · exact append_fault first
      · cases completion with
        | threw => cases rest
        | returned => exact induction rest

theorem appendToBuffer_ok_iff :
    response.appendToBuffer output = .ok after ↔
      response.appendToBufferSized vectorLimit output =
        .ok (.returned, after) := by
  constructor
  · intro appended
    obtain ⟨⟨completion, next⟩, result, rest⟩ := bind_eq_ok appended
    cases completion with
    | threw => cases rest
    | returned =>
        cases rest
        exact result
  · intro returned
    rw [appendToBuffer, returned]
    rfl

theorem appendToBuffer_fault {fault : Fault}
    (failed : response.appendToBuffer output = .error fault) :
    fault ∈ appendFaults := by
  rcases bind_eq_error failed with first | ⟨⟨completion, next⟩, _, rest⟩
  · exact appendPieces_fault first
  · cases completion with
    | returned => cases rest
    | threw =>
        obtain rfl := Except.error.inj rest
        decide

theorem held_new (room : kCheapPrepend + kInitialSize ≤ limit)
    (limited : limit < 2 ^ 63) : Held limit (.new kInitialSize) where
  sound := new_sound _
  size_le := by
    rw [Buffer.new, List.length_replicate]
    exact room
  limit_lt := limited

theorem held_vector : Held vectorLimit (.new kInitialSize) :=
  held_new (by decide) (by decide)

/-- What a response leaves in a new buffer, if appending it returns. -/
theorem appendToBuffer_returned
    (small : ∀ piece ∈ response.pieces, piece.length < 2 ^ 63)
    (returned : response.appendToBuffer (.new kInitialSize) = .ok after) :
    (∀ piece ∈ response.pieces, truncated piece ≤ piece.length) ∧
      after.content = response.appended := by
  obtain ⟨within, _, content⟩ := appendPieces_returned held_vector small
    (appendToBuffer_ok_iff.mp returned)
  rw [content_new, List.nil_append] at content
  exact ⟨within, content⟩

/-- A response of which little enough passes is appended. -/
theorem appendToBuffer_fits
    (within : ∀ piece ∈ response.pieces, truncated piece ≤ piece.length)
    (room : response.appended.length < 2 ^ 61) :
    ∃ after, response.appendToBuffer (.new kInitialSize) = .ok after ∧
      after.content = response.appended := by
  have space : (Buffer.new kInitialSize).content.length +
      2 * (response.pieces.flatMap passed).length + kCheapPrepend ≤
        vectorLimit := by
    have part : (response.pieces.flatMap passed).length < 2 ^ 61 := room
    rw [content_new, List.length_nil, kCheapPrepend, vectorLimit]
    omega
  obtain ⟨after, returned, content⟩ :=
    appendPieces_fits held_vector within space
  rw [content_new, List.nil_append] at content
  exact ⟨after, appendToBuffer_ok_iff.mpr returned, content⟩

theorem flatMap_passed {pieces : List (List Byte)}
    (short : ∀ piece ∈ pieces, piece.length < 2 ^ 31) :
    pieces.flatMap passed = pieces.flatten := by
  induction pieces with
  | nil => rfl
  | cons piece pieces induction =>
      have others : ∀ other ∈ pieces, other.length < 2 ^ 31 := by
        intro other member
        exact short other (List.mem_cons_of_mem piece member)
      rw [List.flatMap_cons, List.flatten_cons, induction others,
        passed_eq_self (short piece List.mem_cons_self)]

theorem appended_eq_bytes
    (short : ∀ piece ∈ response.pieces, piece.length < 2 ^ 31) :
    response.appended = response.bytes :=
  flatMap_passed short

theorem Sized.within (sized : response.Sized) :
    ∀ piece ∈ response.pieces, truncated piece ≤ piece.length := by
  intro piece member
  have short := sized.pieces piece member
  exact Nat.le_of_eq ((truncated_eq_iff (by omega)).mpr short)

theorem Sized.appendToBuffer (sized : response.Sized) :
    ∃ after, response.appendToBuffer (.new kInitialSize) = .ok after ∧
      after.content = response.bytes := by
  have same := appended_eq_bytes sized.pieces
  obtain ⟨after, returned, content⟩ := appendToBuffer_fits sized.within
    (same ▸ sized.total)
  exact ⟨after, returned, content.trans same⟩

end HttpResponse

/-- A callback with sized responses. -/
def appendingOfSized (respond : HttpCallback)
    (sized : ∀ dispatched req close,
      (respond dispatched req (.new close)).Sized) :
    AppendingCallback where
  respond := respond
  appends dispatched req close := by
    obtain ⟨after, returned, _⟩ :=
      (sized dispatched req close).appendToBuffer
    exact ⟨after, returned⟩

def appendingDefault : AppendingCallback :=
  appendingOfSized defaultHttpCallback (by
    intro _ _ _
    show HttpResponse.Sized
      { headers := ∅, statusCode := .k404NotFound
        statusMessage := ascii "Not Found", closeConnection := true
        body := [] }
    decide +kernel)

end Muduo
