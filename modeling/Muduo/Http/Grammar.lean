import Muduo.Http.Rendering

/-!
# The requests the parser knows

What the parser takes for a complete request and which request lines it refuses
after their method, stated about the bytes alone; the lemmas connect both to
`Parses` from a fresh context.  `Requests` are the requests that bytes begin
with, one after the other.
-/

namespace Muduo

/-- A request line that is accepted: method, target and version. -/
def AcceptedLine (line : List Byte) : Prop :=
  ∃ (method : Method) (target : List Byte) (version : Version),
    method ≠ .kInvalid ∧ space ∉ target ∧ version ≠ .kUnknown ∧
    line = ascii method.methodString ++
      space :: (target ++ space :: ascii version.text)

/-- A line that begins with one of the five methods and a space. -/
def MethodLine (line : List Byte) : Prop :=
  ∃ (method : Method) (rest : List Byte), method ≠ .kInvalid ∧
    line = ascii method.methodString ++ space :: rest

/-- Header lines up to and with the first line without a colon. -/
inductive HeaderBlock : List Byte → List Byte → Prop where
  | last {bytes line rest : List Byte} :
      cutLine bytes = some (line, rest) →
      colonByte ∉ line →
      HeaderBlock bytes rest
  | header {bytes line rest left : List Byte} :
      cutLine bytes = some (line, rest) →
      colonByte ∈ line →
      HeaderBlock rest left →
      HeaderBlock bytes left

/-- Bytes that begin with a complete request, and the bytes behind it. -/
def CompleteRequest (bytes rest : List Byte) : Prop :=
  ∃ line behind, cutLine bytes = some (line, behind) ∧ AcceptedLine line ∧
    HeaderBlock behind rest

/-- Bytes that begin with a line naming a method, but not a request line. -/
def RefusedAfterMethod (bytes : List Byte) : Prop :=
  ∃ line rest, cutLine bytes = some (line, rest) ∧ MethodLine line ∧
    ¬ AcceptedLine line

theorem split_at_mem {c : Byte} {bytes : List Byte} (member : c ∈ bytes) :
    bytes = bytes.take (bytes.idxOf c) ++
      c :: bytes.drop (bytes.idxOf c + 1) := by
  have inside := List.idxOf_lt_length_iff.mpr member
  have item := List.getElem_idxOf inside
  calc
    bytes = bytes.take (bytes.idxOf c) ++ bytes.drop (bytes.idxOf c) :=
      (List.take_append_drop _ _).symm
    _ = _ := by rw [List.drop_eq_getElem_cons inside, item]

theorem notMem_take_idxOf (c : Byte) (bytes : List Byte) :
    c ∉ bytes.take (bytes.idxOf c) := by
  intro member
  have inside := List.idxOf_lt_length_iff.mpr member
  have same : (bytes.take (bytes.idxOf c) ++
      bytes.drop (bytes.idxOf c)).idxOf c =
      (bytes.take (bytes.idxOf c)).idxOf c :=
    List.idxOf_append_of_mem member
  rw [List.take_append_drop] at same
  rw [← same, List.length_take] at inside
  omega

namespace HttpRequest

variable {request after : HttpRequest} {line : List Byte}

theorem new_method : new.method = .kInvalid := rfl

theorem eq_methodString {m : List Byte} (known : methodOf m ≠ .kInvalid) :
    m = ascii (methodOf m).methodString := by
  unfold methodOf at known ⊢
  split
  · assumption
  · split
    · assumption
    · split
      · assumption
      · split
        · assumption
        · split
          · assumption
          · simp_all

theorem methodLine_iff (line : List Byte) :
    MethodLine line ↔ space ∈ line ∧
      methodOf (line.take (line.idxOf space)) ≠ .kInvalid := by
  constructor
  · rintro ⟨method, rest, known, rfl⟩
    have noSpace := method.no_space_methodString
    rw [List.idxOf_append_of_notMem noSpace, List.idxOf_cons_self,
      Nat.add_zero, List.take_left, method.methodOf_methodString]
    exact ⟨by simp, known⟩
  · rintro ⟨spaced, known⟩
    refine ⟨_, line.drop (line.idxOf space + 1), known, ?_⟩
    rw [← eq_methodString known]
    exact split_at_mem spaced

theorem setVersionText_accepts {text : List Byte}
    (accepts : (request.setVersionText text).1 = true) :
    ∃ version : Version, version ≠ .kUnknown ∧
      text = ascii version.text := by
  unfold setVersionText at accepts
  split at accepts
  · next shape =>
      have whole := List.take_append_drop 7 text
      split at accepts
      · next one =>
          exact ⟨.kHttp11, by decide, by rw [← whole, shape.2, one]; rfl⟩
      · split at accepts
        · next zero =>
            exact ⟨.kHttp10, by decide, by rw [← whole, shape.2, zero]; rfl⟩
        · cases accepts
  · cases accepts

theorem method_setTarget (target : List Byte) :
    (request.setTarget target).method = request.method := by
  simp only [setTarget]
  split <;> rfl

theorem method_setVersionText (text : List Byte) :
    (request.setVersionText text).2.method = request.method := by
  simp only [setVersionText]
  split
  · split
    · rfl
    · split <;> rfl
  · rfl

theorem acceptedLine_of_processed (unset : request.method = .kInvalid)
    (accepts : request.processRequestLine line = .ok (true, after)) :
    AcceptedLine line := by
  simp only [processRequestLine] at accepts
  split at accepts
  · cases accepts
  · next oneSpace =>
      rw [setMethod_unset unset, ok_bind] at accepts
      simp only at accepts
      split at accepts
      · next known =>
          split at accepts
          · cases accepts
          · next second =>
              have spaced := List.idxOf_lt_length_iff.mp
                (Nat.lt_of_le_of_ne List.idxOf_le_length oneSpace)
              have again := List.idxOf_lt_length_iff.mp
                (Nat.lt_of_le_of_ne List.idxOf_le_length second)
              have flag := congrArg Prod.fst (Except.ok.inj accepts)
              obtain ⟨version, knownVersion, text⟩ :=
                setVersionText_accepts flag
              have method := of_decide_eq_true known
              let start := line.drop (line.idxOf space + 1)
              refine ⟨_, start.take (start.idxOf space), version, method,
                notMem_take_idxOf _ _, knownVersion, ?_⟩
              rw [← eq_methodString method, ← text, ← split_at_mem again]
              exact split_at_mem spaced
      · cases accepts

theorem processed_of_acceptedLine (unset : request.method = .kInvalid)
    (accepted : AcceptedLine line) :
    ∃ after, request.processRequestLine line = .ok (true, after) := by
  obtain ⟨method, target, version, known, noSpace, knownVersion, rfl⟩ :=
    accepted
  have named : methodOf (ascii method.methodString) ≠ .kInvalid := by
    rwa [method.methodOf_methodString]
  have processed := processRequestLine_spaces unset named
    method.no_space_methodString noSpace (ascii version.text)
  rw [setVersionText_text knownVersion] at processed
  exact ⟨_, processed⟩

/-- A processed line leaves a method exactly if it begins with one. -/
theorem method_of_processed (unset : request.method = .kInvalid)
    {accepted : Bool}
    (processed : request.processRequestLine line = .ok (accepted, after)) :
    (MethodLine line ∧ after.method ≠ .kInvalid) ∨
      (¬ MethodLine line ∧ after = request) := by
  rw [methodLine_iff]
  simp only [processRequestLine] at processed
  split at processed
  · next noSpace =>
      have absent : space ∉ line := List.idxOf_eq_length_iff.mp noSpace
      cases processed
      exact .inr ⟨fun both => absent both.1, rfl⟩
  · next oneSpace =>
      have spaced := List.idxOf_lt_length_iff.mp
        (Nat.lt_of_le_of_ne List.idxOf_le_length oneSpace)
      rw [setMethod_unset unset, ok_bind] at processed
      simp only at processed
      split at processed
      · next known =>
          have method := of_decide_eq_true known
          refine .inl ⟨⟨spaced, method⟩, ?_⟩
          split at processed
          · cases processed
            exact method
          · obtain ⟨_, rfl⟩ := Prod.ext_iff.mp (Except.ok.inj processed)
            simp only [method_setVersionText, method_setTarget]
            exact method
      · next unknown =>
          have invalid : methodOf (line.take (line.idxOf space)) =
              .kInvalid := by
            simpa using unknown
          cases processed
          refine .inr ⟨fun both => both.2 invalid, ?_⟩
          rw [invalid, ← unset]

end HttpRequest

theorem HeaderBlock.parses {bytes rest : List Byte}
    (block : HeaderBlock bytes rest) (request : HttpRequest) :
    ∃ final, Parses ⟨.kExpectHeaders, request⟩ bytes .complete final rest := by
  induction block generalizing request with
  | last cut noColon => exact ⟨_, .complete cut noColon⟩
  | header cut colon _ induction =>
      obtain ⟨final, others⟩ := induction _
      exact ⟨final, .header cut colon others⟩

namespace Parses

theorem headerBlock {request : HttpRequest} {bytes rest : List Byte}
    {final : HttpContext}
    (parses : Parses ⟨.kExpectHeaders, request⟩ bytes .complete final rest) :
    HeaderBlock bytes rest := by
  generalize start : HttpContext.mk .kExpectHeaders request = context
    at parses
  generalize ended : Verdict.complete = verdict at parses
  induction parses generalizing request with
  | noRequestLine _ => cases ended
  | refused _ _ => cases ended
  | requestLine _ _ _ _ => cases start
  | noHeader _ => cases ended
  | header cut colon _ induction => exact .header cut colon (induction rfl ended)
  | complete cut noColon => exact .last cut noColon

theorem not_refused_headers {request : HttpRequest} {bytes left : List Byte}
    {final : HttpContext} :
    ¬ Parses ⟨.kExpectHeaders, request⟩ bytes .refused final left := by
  intro parses
  generalize start : HttpContext.mk .kExpectHeaders request = context
    at parses
  generalize ended : Verdict.refused = verdict at parses
  induction parses generalizing request with
  | noRequestLine _ => cases ended
  | refused _ _ => cases start
  | requestLine _ _ _ _ => cases start
  | noHeader _ => cases ended
  | header _ _ _ induction => exact induction rfl ended
  | complete _ _ => cases ended

/-- A fresh context completes exactly the complete requests. -/
theorem complete_iff {bytes rest : List Byte} :
    (∃ final, Parses .new bytes .complete final rest) ↔
      CompleteRequest bytes rest := by
  constructor
  · rintro ⟨final, parses⟩
    cases parses with
    | requestLine cut accepts others =>
        exact ⟨_, _, cut, HttpRequest.acceptedLine_of_processed rfl accepts,
          others.headerBlock⟩
  · rintro ⟨line, behind, cut, accepted, block⟩
    obtain ⟨request, processed⟩ :=
      HttpRequest.processed_of_acceptedLine HttpRequest.new_method accepted
    obtain ⟨final, others⟩ := block.parses request
    exact ⟨final, .requestLine cut processed others⟩

/-- What a refusal leaves: all the bytes, and the method if there was one. -/
theorem refused_cases {bytes left : List Byte} {final : HttpContext}
    (parses : Parses .new bytes .refused final left) :
    left = bytes ∧ final.state = .kExpectRequestLine ∧
      ((RefusedAfterMethod bytes ∧ final.request.method ≠ .kInvalid) ∨
        (¬ RefusedAfterMethod bytes ∧ final = .new)) := by
  cases parses with
  | @refused _ after _ line rest cut refuses =>
      have notAccepted : ¬ AcceptedLine line := by
        intro accepted
        obtain ⟨_, processed⟩ :=
          HttpRequest.processed_of_acceptedLine HttpRequest.new_method
            accepted
        cases processed.symm.trans refuses
      refine ⟨rfl, rfl, ?_⟩
      rcases HttpRequest.method_of_processed rfl refuses with
        ⟨named, known⟩ | ⟨unnamed, rfl⟩
      · exact .inl ⟨⟨line, rest, cut, named, notAccepted⟩, known⟩
      · refine .inr ⟨?_, rfl⟩
        rintro ⟨other, _, cutOther, named, _⟩
        cases cut.symm.trans cutOther
        exact unnamed named
  | requestLine _ _ others => exact (not_refused_headers others).elim

theorem of_refusedAfterMethod {bytes : List Byte}
    (refused : RefusedAfterMethod bytes) :
    ∃ final, Parses .new bytes .refused final bytes := by
  obtain ⟨line, rest, cut, _, notAccepted⟩ := refused
  have unset := HttpRequest.new_method
  obtain ⟨accepted, after, processed⟩ :=
    HttpRequest.processRequestLine_unset unset line
  cases accepted with
  | false => exact ⟨_, .refused cut processed⟩
  | true =>
      exact (notAccepted
        (HttpRequest.acceptedLine_of_processed unset processed)).elim

theorem not_complete {bytes left : List Byte} {verdict : Verdict}
    {final : HttpContext} (parses : Parses .new bytes verdict final left)
    (other : verdict ≠ .complete) (rest : List Byte) :
    ¬ CompleteRequest bytes rest := by
  intro complete
  obtain ⟨_, completes⟩ := complete_iff.mpr complete
  exact other (parses.unique completes).1

theorem not_refusedAfterMethod {bytes left : List Byte} {verdict : Verdict}
    {final : HttpContext} (parses : Parses .new bytes verdict final left)
    (other : verdict ≠ .refused) : ¬ RefusedAfterMethod bytes := by
  intro refused
  obtain ⟨_, refuses⟩ := of_refusedAfterMethod refused
  exact other (parses.unique refuses).1

end Parses

theorem CompleteRequest.unique {bytes rest other : List Byte}
    (complete : CompleteRequest bytes rest)
    (again : CompleteRequest bytes other) : rest = other := by
  obtain ⟨_, first⟩ := Parses.complete_iff.mpr complete
  obtain ⟨_, second⟩ := Parses.complete_iff.mpr again
  exact (first.unique second).2.2

theorem RefusedAfterMethod.append {bytes : List Byte}
    (refused : RefusedAfterMethod bytes) (more : List Byte) :
    RefusedAfterMethod (bytes ++ more) := by
  obtain ⟨line, rest, cut, named, notAccepted⟩ := refused
  exact ⟨line, rest ++ more, cutLine_append more cut, named, notAccepted⟩

theorem RefusedAfterMethod.not_complete {bytes rest : List Byte}
    (refused : RefusedAfterMethod bytes) : ¬ CompleteRequest bytes rest := by
  intro complete
  obtain ⟨_, first⟩ := Parses.of_refusedAfterMethod refused
  obtain ⟨_, second⟩ := Parses.complete_iff.mpr complete
  cases (first.unique second).1

/-- Complete requests that bytes begin with, up to the time they were received,
and the bytes behind them. -/
inductive Requests : List Byte → List HttpRequest → List Byte → Prop where
  | nil (bytes : List Byte) : Requests bytes [] bytes
  | cons {bytes rest left : List Byte} {final : HttpContext}
      {reqs : List HttpRequest} :
      Parses .new bytes .complete final rest →
      Requests rest reqs left →
      Requests bytes (final.request :: reqs) left

/-- No more complete requests than that. -/
def AtMost (count : Nat) (bytes : List Byte) : Prop :=
  ∀ reqs left, Requests bytes reqs left → reqs.length ≤ count

namespace Requests

variable {bytes left pending : List Byte} {done reqs : List HttpRequest}

theorem append (requests : Requests bytes reqs left) (more : List Byte) :
    Requests (bytes ++ more) reqs (left ++ more) := by
  induction requests with
  | nil bytes => exact .nil (bytes ++ more)
  | cons parses _ induction =>
      exact .cons (parses.append (by simp) more) induction

theorem concat (requests : Requests bytes reqs left) {final : HttpContext}
    {rest : List Byte} (parses : Parses .new left .complete final rest) :
    Requests bytes (reqs ++ [final.request]) rest := by
  induction requests with
  | nil bytes => exact .cons parses (.nil rest)
  | cons head _ induction => exact .cons head (induction parses)

theorem beyond (known : Requests bytes done pending)
    (requests : Requests bytes reqs left) :
    reqs <+: done ∨ ∃ final rest more,
      Parses .new pending .complete final rest ∧
      reqs = done ++ final.request :: more := by
  induction known generalizing reqs with
  | nil bytes =>
      cases requests with
      | nil _ => exact .inl (List.prefix_refl [])
      | cons parses _ => exact .inr ⟨_, _, _, parses, rfl⟩
  | cons head _ induction =>
      cases requests with
      | nil _ => exact .inl List.nil_prefix
      | cons parses others =>
          obtain ⟨_, rfl, rfl⟩ := head.unique parses
          rcases induction others with front | ⟨final, rest, more, next, rfl⟩
          · exact .inl (List.cons_prefix_cons.mpr ⟨rfl, front⟩)
          · exact .inr ⟨final, rest, more, next, rfl⟩

theorem prefix_iff_atMost (known : Requests bytes done pending) :
    (∀ reqs left, Requests bytes reqs left → reqs <+: done) ↔
      AtMost done.length bytes := by
  constructor
  · intro fronts reqs left requests
    exact (fronts reqs left requests).length_le
  · intro atMost reqs left requests
    have short := atMost reqs left requests
    rcases known.beyond requests with front | ⟨_, _, more, _, longer⟩
    · exact front
    · rw [longer, List.length_append, List.length_cons] at short
      omega

theorem atMost_of_incomplete (known : Requests bytes done pending)
    (none : ∀ final rest, ¬ Parses .new pending .complete final rest) :
    AtMost done.length bytes := by
  intro reqs left requests
  rcases known.beyond requests with front | ⟨final, rest, _, parses, _⟩
  · exact front.length_le
  · exact (none final rest parses).elim

end Requests

theorem AtMost.mono {few many : Nat} {bytes : List Byte}
    (atMost : AtMost few bytes) (more : few ≤ many) : AtMost many bytes := by
  intro reqs left requests
  exact (atMost reqs left requests).trans more

theorem atMost_render (text : RequestText) : AtMost 1 text.render := by
  have parses := text.parses []
  rw [List.append_nil] at parses
  have known : Requests text.render [text.request] [] :=
    .cons parses (.nil [])
  apply known.atMost_of_incomplete
  intro final rest another
  cases (another.unique (.noRequestLine rfl)).1

end Muduo
