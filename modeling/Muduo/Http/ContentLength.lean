import Muduo.Base.BufferRuns
import Muduo.Http.Appending
import Muduo.Http.ResponseStream

/-!
# The announced length of a body

`HttpResponse::appendToBuffer` once more in machine arithmetic.  It announces the
size of the body, and appends as much of it as passes through a `StringPiece`.
-/

namespace Muduo

open Library Buffer Buffer.SizeT

namespace HttpResponse

/-- The line that announces the size of the body. -/
def announcement (size : Nat) : List Byte :=
  formatted ("Content-Length: " ++ toString size ++ "\r\n")

/-- The line that announces a number of bytes. -/
def lengthLine (count : Nat) : List Byte :=
  ascii ("Content-Length: " ++ toString count ++ "\r\n")

variable {limit : Nat} {output : Buffer}

theorem pieces_eq (response : HttpResponse) :
    response.pieces = response.pieces.dropLast ++ [response.body] := by
  have last : response.body ∈ response.pieces.getLast? := by
    rw [Option.mem_def, pieces, List.getLast?_append]
    rfl
  exact (List.dropLast_append_getLast? response.body last).symm

theorem announcement_mem (response : HttpResponse)
    (keeps : response.closeConnection = false) :
    announcement response.body.length ∈ response.pieces.dropLast := by
  simp [pieces, keeps, announcement]

theorem lengthLine_length_le {count : Nat} (short : count < 2 ^ 31) :
    (lengthLine count).length ≤ 28 := by
  have digits : (ascii (toString count)).length ≤ 10 :=
    length_toString_le (by decide) (by omega)
  have words : (ascii "Content-Length: ").length = 16 := rfl
  have ends : (ascii "\r\n").length = 2 := rfl
  rw [lengthLine, ascii_append, ascii_append, List.length_append,
    List.length_append]
  omega

theorem lengthLine_inj {left right : Nat}
    (same : lengthLine left = lengthLine right) : left = right := by
  rw [lengthLine, lengthLine, ascii_append, ascii_append, ascii_append,
    ascii_append] at same
  have numbers := List.append_cancel_left (List.append_cancel_right same)
  rw [← decimal_toString left, numbers, decimal_toString]

theorem announcement_eq_lengthLine_iff {size count : Nat}
    (short : count < 2 ^ 31) :
    announcement size = lengthLine count ↔ size = count := by
  have bound := lengthLine_length_le short
  constructor
  · intro same
    have cut : (lengthLine size).take 31 = lengthLine count := same
    have whole : (lengthLine size).length ≤ 31 := by
      have sizes := congrArg List.length cut
      rw [List.length_take] at sizes
      omega
    rw [List.take_of_length_le whole] at cut
    exact lengthLine_inj cut
  · rintro rfl
    exact formatted_of_le (by
      have fits : (lengthLine size).length ≤ 31 := by omega
      exact fits)

/-- What a response announces is what it appends exactly for a short body. -/
theorem announces_iff (held : Held limit output) {response : HttpResponse}
    (small : ∀ piece ∈ response.pieces, piece.length < 2 ^ 63)
    {after : Buffer}
    (returned : response.appendToBufferSized limit output =
      .ok (.returned, after)) :
    ∃ before appended,
      appendPieces limit output response.pieces.dropLast =
        .ok (.returned, before) ∧
      appendString limit before response.body = .ok (.returned, after) ∧
      after.content = before.content ++ appended ∧
      (announcement response.body.length = lengthLine appended.length ↔
        response.body.length < 2 ^ 31) := by
  have split := pieces_eq response
  rw [appendToBufferSized, split] at returned
  obtain ⟨before, head, last⟩ := appendPieces_concat returned
  have bodySmall : response.body.length < 2 ^ 63 := by
    apply small
    rw [split]
    exact List.mem_append_right _ List.mem_cons_self
  have headSmall : ∀ piece ∈ response.pieces.dropLast,
      piece.length < 2 ^ 63 := by
    intro piece member
    exact small piece ((List.dropLast_sublist _).subset member)
  have beforeHeld := (appendPieces_returned held headSmall head).2.1
  obtain ⟨within, _, content⟩ := appendString_returned beforeHeld bodySmall last
  refine ⟨before, _, head, last, content, ?_⟩
  rw [List.length_take_of_le within,
    announcement_eq_lengthLine_iff (truncated_lt bodySmall within), eq_comm,
    truncated_eq_iff bodySmall]

end HttpResponse

section Reachable

variable {ι : Type} [DecidableEq ι]

/-- Strings of fewer than `2 ^ 31` bytes are appended as a whole, and others only
if the vector throws; so it is with the body that a response announces. -/
theorem append_string_iff {limit : Nat} (limited : limit < 2 ^ 63)
    {initialSize : ι → Nat} {ops : List (BuffersOp ι)} {buffers : ι → Buffer}
    (run : (buffersMachine ι).Run (freshBuffers initialSize) ops buffers)
    (index : ι) (fits : (buffers index).buffer.length ≤ limit) :
    (∀ str : List Byte, str.length < 2 ^ 63 →
      (AppendsAll limit (buffers index) str ↔
        str.length < 2 ^ 31 ∨
          ResizeThrows limit (buffers index) (truncated str))) ∧
    (∀ response : HttpResponse, response.closeConnection = false →
      (∀ piece ∈ response.pieces, piece.length < 2 ^ 63) →
      ∀ after, response.appendToBufferSized limit (buffers index) =
        .ok (.returned, after) →
      ∃ before appended,
        HttpResponse.announcement response.body.length ∈
          response.pieces.dropLast ∧
        HttpResponse.appendPieces limit (buffers index)
          response.pieces.dropLast = .ok (.returned, before) ∧
        after.content = before.content ++ appended ∧
        (HttpResponse.announcement response.body.length =
            HttpResponse.lengthLine appended.length ↔
          response.body.length < 2 ^ 31)) := by
  have held : Held limit (buffers index) :=
    ⟨((buffers_refine_contents initialSize run).1 index).1, fits, limited⟩
  constructor
  · intro str small
    exact appendsAll_iff held small
  · intro response keeps small after returned
    obtain ⟨before, appended, head, _, content, exactly⟩ :=
      HttpResponse.announces_iff held small returned
    exact ⟨before, appended, response.announcement_mem keeps, head, content,
      exactly⟩

/-- A response with a body of five bytes. -/
def greeting : HttpResponse :=
  { HttpResponse.new false with
    statusCode := .k200Ok, statusMessage := ascii "OK", body := ascii "hello" }

/-- A small string, and a small body behind the head of its response. -/
theorem append_string_iff_small :
    ∃ buffers, (buffersMachine Unit).Run (freshBuffers fun _ => 0)
        [.on () (.append [7])] buffers ∧
      AppendsAll (2 ^ 62) (buffers ()) (ascii "hello") ∧
      ∃ after appended, greeting.appendToBufferSized (2 ^ 62) (buffers ()) =
          .ok (.returned, after) ∧
        appended <:+ after.content ∧
        HttpResponse.announcement 5 =
          HttpResponse.lengthLine appended.length := by
  have run : (buffersMachine Unit).Run (freshBuffers fun _ => 0)
      [.on () (.append [7])]
      (Function.update (freshBuffers fun _ => 0) ()
        ⟨[0, 0, 0, 0, 0, 0, 0, 0, 7], 8, 9⟩) := .head .refl trivial rfl
  have limited : 2 ^ 62 < 2 ^ 63 := by omega
  have fits : 9 ≤ 2 ^ 62 := by omega
  have small : ∀ piece ∈ greeting.pieces, piece.length < 2 ^ 63 := by
    decide +kernel
  obtain ⟨strings, responses⟩ := append_string_iff limited run () fits
  have short : (ascii "hello").length < 2 ^ 31 := by decide
  have whole := (strings (ascii "hello") (by decide)).mpr (.inl short)
  have completes : (greeting.appendToBufferSized (2 ^ 62)
      ⟨[0, 0, 0, 0, 0, 0, 0, 0, 7], 8, 9⟩).map Prod.fst = .ok .returned := by
    decide +kernel
  obtain ⟨⟨completion, after⟩, outcome, returned⟩ :=
    exists_of_map_eq_ok completes
  obtain rfl : completion = .returned := returned
  obtain ⟨before, appended, _, _, content, exactly⟩ :=
    responses greeting rfl small after outcome
  exact ⟨_, run, whole, after, appended, outcome,
    ⟨before.content, content.symm⟩, exactly.mpr short⟩

/-- A string of `2 ^ 32` bytes counts as empty. -/
theorem append_string_drops_all :
    ∃ after, appendString (2 ^ 62) (.new kInitialSize)
        (List.replicate (2 ^ 32) 97) = .ok (.returned, after) ∧
      after.content = [] ∧
      ¬ AppendsAll (2 ^ 62) (.new kInitialSize)
        (List.replicate (2 ^ 32) 97) := by
  have size : (List.replicate (2 ^ 32) (97 : Byte)).length = 2 ^ 32 :=
    List.length_replicate
  have nothing : truncated (List.replicate (2 ^ 32) 97) = 0 := by
    rw [truncated, size]
    decide
  have quiet : ¬ ResizeThrows (2 ^ 62) (.new kInitialSize) 0 := by
    intro throws
    exact Nat.not_lt_zero _ throws.1
  have within : 0 ≤ (List.replicate (2 ^ 32) (97 : Byte)).length :=
    Nat.zero_le _
  have held : Held (2 ^ 62) (.new kInitialSize) :=
    HttpResponse.held_new (by decide) (by decide)
  rcases append_spec held within (by omega) with
    ⟨throws, _⟩ | ⟨_, after, returned, _, _, content⟩
  · exact absurd throws quiet
  · refine ⟨after, ?_, ?_, ?_⟩
    · rw [appendString_eq, nothing]
      exact returned
    · rw [content, List.take_zero, content_new]
      rfl
    · rw [appendsAll_iff held (by omega), nothing, size]
      rintro (short | throws)
      · omega
      · exact quiet throws

end Reachable

end Muduo
