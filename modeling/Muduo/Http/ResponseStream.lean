import Muduo.Base.Decimal
import Muduo.Http.Answers
import Muduo.Http.Appending
import Muduo.Http.Rendering
import Muduo.Library.Framing

/-!
# Reading responses back

A reference decoder for the replies of the server, and what it makes of one
response: with a `Content-Length` it takes the response off the front of any
stream, without one it takes the rest of the stream for the body.  It reads back
what `appendToBuffer` has left of the strings, which is the response itself if
they are short.
-/

namespace Muduo

open Library Buffer.SizeT

/-- What a peer reads of a reply. -/
structure Reply where
  statusCode : Nat
  statusMessage : List Byte
  headers : HeaderMap
  body : List Byte

namespace Reply

def decimal (text : List Byte) : Nat :=
  text.foldl (fun value digit => 10 * value + (digit.toNat - 48)) 0

/-- The code and the message of a status line. -/
def readStatusLine (line : List Byte) : Option (Nat × List Byte) :=
  if line.take 9 = ascii "HTTP/1.1 " then
    let behind := line.drop 9
    let mark := behind.idxOf space
    if mark = behind.length then none
    else some (decimal (behind.take mark), behind.drop (mark + 1))
  else none

/-- Header lines up to the empty line, at most `count` lines. -/
def readHeaders : Nat → HeaderMap → List Byte →
    Option (HeaderMap × List Byte)
  | 0, _, _ => none
  | count + 1, headers, bytes => do
      let (line, rest) ← cutLine bytes
      if line = [] then return (headers, rest)
      else
        let (name, value) ← cutAt (ascii ": ") line
        readHeaders count (headers.insert name value) rest

/-- The body: `Content-Length` bytes, or everything that is left. -/
def readBody (headers : HeaderMap) (bytes : List Byte) :
    Option (HeaderMap × List Byte × List Byte) :=
  match headers[ascii "Content-Length"]? with
  | none => some (headers, bytes, [])
  | some text =>
      if decimal text ≤ bytes.length then
        some (headers.erase (ascii "Content-Length"),
          bytes.take (decimal text), bytes.drop (decimal text))
      else none

def read (bytes : List Byte) : Option (Reply × List Byte) := do
  let (line, rest) ← cutLine bytes
  let (statusCode, statusMessage) ← readStatusLine line
  let (headers, rest) ← readHeaders rest.length ∅ rest
  let (headers, body, rest) ← readBody headers rest
  return ({ statusCode, statusMessage, headers, body }, rest)

end Reply

/-- The reply that a response stands for. -/
def HttpResponse.reply (response : HttpResponse) : Reply where
  statusCode := response.statusCode.value
  statusMessage := response.statusMessage
  headers := response.headers.insert (ascii "Connection")
    (ascii (if response.closeConnection then "close" else "Keep-Alive"))
  body := response.body

def carriageReturn : Byte := 0x0d
def lineFeed : Byte := 0x0a

/-- Text without a carriage return or a line feed. -/
def OneLine (text : List Byte) : Prop :=
  carriageReturn ∉ text ∧ lineFeed ∉ text

/-- What the callback must keep to for its response to be readable. -/
structure HttpResponse.Readable (response : HttpResponse) : Prop where
  message : OneLine response.statusMessage
  names : ∀ header ∈ response.headers.toList,
    OneLine header.1 ∧ colonByte ∉ header.1 ∧
      header.1 ≠ ascii "Content-Length" ∧ header.1 ≠ ascii "Connection"
  values : ∀ header ∈ response.headers.toList, OneLine header.2
  body_short : response.body.length < 2 ^ 31

instance OneLine.decidable (text : List Byte) : Decidable (OneLine text) :=
  inferInstanceAs (Decidable (_ ∧ _))

instance HttpResponse.Readable.decidable (response : HttpResponse) :
    Decidable response.Readable :=
  decidable_of_iff (OneLine response.statusMessage ∧
      (∀ header ∈ response.headers.toList,
        OneLine header.1 ∧ colonByte ∉ header.1 ∧
          header.1 ≠ ascii "Content-Length" ∧
          header.1 ≠ ascii "Connection") ∧
      (∀ header ∈ response.headers.toList, OneLine header.2) ∧
      response.body.length < 2 ^ 31)
    ⟨fun all => ⟨all.1, all.2.1, all.2.2.1, all.2.2.2⟩,
      fun all => ⟨all.message, all.names, all.values, all.body_short⟩⟩

/-- Strings that pass through the `int` of a `StringPiece`. -/
structure HttpResponse.Short (response : HttpResponse) : Prop where
  message : response.statusMessage.length < 2 ^ 31
  headers : ∀ header ∈ response.headers.toList,
    header.1.length < 2 ^ 31 ∧ header.2.length < 2 ^ 31

instance HttpResponse.Short.decidable (response : HttpResponse) :
    Decidable response.Short :=
  decidable_of_iff (response.statusMessage.length < 2 ^ 31 ∧
      ∀ header ∈ response.headers.toList,
        header.1.length < 2 ^ 31 ∧ header.2.length < 2 ^ 31)
    ⟨fun all => ⟨all.1, all.2⟩, fun all => ⟨all.message, all.headers⟩⟩

theorem OneLine.passed {text : List Byte} (line : OneLine text) :
    OneLine (passed text) := by
  have front : Buffer.SizeT.passed text ⊆ text := List.take_subset _ _
  exact ⟨fun occurs => line.1 (front occurs),
    fun occurs => line.2 (front occurs)⟩

theorem OneLine.no_crlf {text : List Byte} (line : OneLine text) :
    ¬ kCRLF <:+: text :=
  no_crlf_of_no_cr line.1

theorem OneLine.append {left right : List Byte} (first : OneLine left)
    (second : OneLine right) : OneLine (left ++ right) := by
  constructor
  · simp [first.1, second.1]
  · simp [first.2, second.2]

theorem ascii_append (left right : String) :
    ascii (left ++ right) = ascii left ++ ascii right := by
  simp [ascii]

section Decimal

theorem decimal_digits {digits : List Char}
    (all : ∀ c ∈ digits, c.isDigit = true) (value : Nat) :
    (digits.map Char.toUInt8).foldl
        (fun value digit => 10 * value + (digit.toNat - 48)) value =
      Nat.ofDigitChars 10 digits value := by
  induction digits generalizing value with
  | nil => rfl
  | cons digit digits induction =>
      have head := toUInt8_digit (all digit List.mem_cons_self)
      have tail : ∀ c ∈ digits, c.isDigit = true := by
        intro c member
        exact all c (List.mem_cons_of_mem digit member)
      rw [List.map_cons, List.foldl_cons, head.2.2, induction tail,
        Nat.ofDigitChars_cons]
      rfl

theorem decimal_toString (n : Nat) :
    Reply.decimal (ascii (toString n)) = n := by
  rw [Reply.decimal, ascii_toString,
    decimal_digits (fun _ member => isDigit_of_mem member),
    Nat.ofDigitChars_ten_toDigits]

end Decimal

namespace HttpResponse

/-- A header and its value as they stand on a line. -/
def fieldLine (field : List Byte × List Byte) : List Byte :=
  field.1 ++ (colonByte :: space :: field.2)

/-- The headers that `appendToBuffer` adds by itself. -/
def framing (response : HttpResponse) : List (List Byte × List Byte) :=
  if response.closeConnection then
    [(ascii "Connection", ascii "close")]
  else
    [(ascii "Content-Length", ascii (toString response.body.length)),
      (ascii "Connection", ascii "Keep-Alive")]

/-- The header lines as they are appended. -/
def fields (response : HttpResponse) : List (List Byte × List Byte) :=
  response.framing ++ response.headers.toList.map (Prod.map passed passed)

def statusLine (response : HttpResponse) : List Byte :=
  ascii "HTTP/1.1 " ++ (ascii (toString response.statusCode.value) ++
    space :: passed response.statusMessage)

/-- Header lines and the empty line behind them. -/
def head (fields : List (List Byte × List Byte)) : List Byte :=
  fields.flatMap (fun field => fieldLine field ++ kCRLF) ++ kCRLF

theorem formatted_of_le {text : String} (fits : (ascii text).length ≤ 31) :
    formatted text = ascii text :=
  List.take_of_length_le fits

theorem formatted_status (code : HttpStatusCode) :
    formatted ("HTTP/1.1 " ++ toString code.value ++ " ") =
      ascii "HTTP/1.1 " ++ (ascii (toString code.value) ++ [space]) := by
  have digits : (ascii (toString code.value)).length ≤ 3 := by
    apply length_toString_le (by decide)
    cases code <;> decide
  have words : (ascii "HTTP/1.1 ").length = 9 := rfl
  have blank : ascii " " = [space] := rfl
  rw [formatted_of_le]
  · rw [ascii_append, ascii_append, blank, List.append_assoc]
  · rw [ascii_append, ascii_append, blank, List.length_append,
      List.length_append, List.length_singleton]
    omega

theorem formatted_length {size : Nat} (short : size < 2 ^ 31) :
    formatted ("Content-Length: " ++ toString size ++ "\r\n") =
      fieldLine (ascii "Content-Length", ascii (toString size)) ++ kCRLF := by
  have digits : (ascii (toString size)).length ≤ 10 :=
    length_toString_le (by decide) (by omega)
  have words : (ascii "Content-Length: ").length = 16 := rfl
  have ends : ascii "\r\n" = kCRLF := rfl
  have two : kCRLF.length = 2 := rfl
  have split : ascii "Content-Length: " =
      ascii "Content-Length" ++ [colonByte, space] := rfl
  rw [formatted_of_le]
  · rw [ascii_append, ascii_append, ends, split, fieldLine]
    simp
  · rw [ascii_append, ascii_append, ends, List.length_append,
      List.length_append]
    omega

theorem flatMap_lines (headers : List (List Byte × List Byte)) :
    (headers.flatMap fun header =>
      [header.1, ascii ": ", header.2, kCRLF]).flatMap passed =
      (headers.map (Prod.map passed passed)).flatMap
        (fun field => fieldLine field ++ kCRLF) := by
  induction headers with
  | nil => rfl
  | cons header headers induction =>
      have pair : passed (ascii ": ") = [colonByte, space] := rfl
      have ending : passed kCRLF = kCRLF := rfl
      rw [List.flatMap_cons, List.flatMap_append, induction, List.map_cons,
        List.flatMap_cons]
      simp [fieldLine, pair, ending]

theorem passed_formatted (text : String) :
    passed (formatted text) = formatted text := by
  have length : (formatted text).length ≤ 31 := List.length_take_le _ _
  exact passed_eq_self (by omega)

theorem flatMap_framing (response : HttpResponse)
    (short : response.body.length < 2 ^ 31) :
    (if response.closeConnection then [ascii "Connection: close\r\n"]
    else
      [formatted ("Content-Length: " ++ toString response.body.length ++
        "\r\n"), ascii "Connection: Keep-Alive\r\n"]).flatMap passed =
      response.framing.flatMap (fun field => fieldLine field ++ kCRLF) := by
  cases close : response.closeConnection with
  | true =>
      simp only [framing, close, if_true]
      rfl
  | false =>
      have alive : passed (ascii "Connection: Keep-Alive\r\n") =
          fieldLine (ascii "Connection", ascii "Keep-Alive") ++ kCRLF := rfl
      have length := passed_formatted
        ("Content-Length: " ++ toString response.body.length ++ "\r\n")
      rw [formatted_length short] at length
      simp only [framing, close, Bool.false_eq_true, if_false,
        List.flatMap_cons, List.flatMap_nil, alive, length,
        formatted_length short]

/-- What is appended is a status line, header lines and the body. -/
theorem appended_eq (response : HttpResponse)
    (short : response.body.length < 2 ^ 31) :
    response.appended = response.statusLine ++
      (kCRLF ++ (head response.fields ++ response.body)) := by
  have ending : passed kCRLF = kCRLF := rfl
  rw [appended, pieces, List.flatMap_append, List.flatMap_append,
    List.flatMap_append, flatMap_framing response short, flatMap_lines]
  simp only [List.flatMap_cons, List.flatMap_nil, passed_formatted, ending,
    passed_eq_self short]
  rw [formatted_status]
  simp [statusLine, head, fields]

theorem appended_ne_nil (response : HttpResponse)
    (short : response.body.length < 2 ^ 31) : response.appended ≠ [] := by
  rw [response.appended_eq short]
  simp [statusLine]

end HttpResponse

/-- A header line that the decoder splits where it was put together. -/
def Splits (field : List Byte × List Byte) : Prop :=
  OneLine field.1 ∧ colonByte ∉ field.1 ∧ OneLine field.2

namespace Reply

open HttpResponse

theorem readStatusLine_statusLine (response : HttpResponse) :
    readStatusLine response.statusLine =
      some (response.statusCode.value, passed response.statusMessage) := by
  have nine : (ascii "HTTP/1.1 ").length = 9 := rfl
  let code := ascii (toString response.statusCode.value)
  let message := passed response.statusMessage
  have noSpace : space ∉ code := notMem_toString (.inl (by decide)) _
  have front : response.statusLine.take 9 = ascii "HTTP/1.1 " := by
    rw [statusLine, ← nine, List.take_left]
  have behind : response.statusLine.drop 9 =
      code ++ space :: message := by
    rw [statusLine, ← nine, List.drop_left]
  have mark : (code ++ space :: message).idxOf space =
      code.length := by
    rw [List.idxOf_append_of_notMem noSpace, List.idxOf_cons_self,
      Nat.add_zero]
  have inside : code.length ≠
      (code ++ space :: message).length := by
    simp
  have last : (code ++ space :: message).drop
      (code.length + 1) = message := by
    rw [← List.drop_drop, List.drop_left]
    rfl
  simp only [readStatusLine, if_pos front, behind, mark, if_neg inside,
    List.take_left, last]
  rw [decimal_toString]

theorem cutAt_fieldLine {field : List Byte × List Byte}
    (noColon : colonByte ∉ field.1) :
    cutAt (ascii ": ") (fieldLine field) = some field := by
  have different : colonByte ≠ space := by decide
  apply cutAt_pair different
  intro occurs
  exact noColon (occurs.subset List.mem_cons_self)

theorem Splits.oneLine {field : List Byte × List Byte}
    (splits : Splits field) : OneLine (fieldLine field) := by
  obtain ⟨name, _, value⟩ := splits
  apply name.append
  constructor
  · have colon : carriageReturn ≠ colonByte := by decide
    have blank : carriageReturn ≠ space := by decide
    simp [colon, blank, value.1]
  · have colon : lineFeed ≠ colonByte := by decide
    have blank : lineFeed ≠ space := by decide
    simp [colon, blank, value.2]

/-- The header lines are read one by one, up to the empty line. -/
theorem readHeaders_head {fields : List (List Byte × List Byte)}
    (split : ∀ field ∈ fields, Splits field) (headers : HeaderMap)
    {count : Nat} (enough : fields.length < count) (rest : List Byte) :
    readHeaders count headers (head fields ++ rest) =
      some (headers.insertMany fields, rest) := by
  induction fields generalizing headers count with
  | nil =>
      obtain ⟨count, rfl⟩ := Nat.exists_eq_add_of_lt enough
      have cut : cutLine (kCRLF ++ rest) = some ([], rest) :=
        cutLine_line (no_crlf_of_no_cr List.not_mem_nil) rest
      rw [List.length_nil, readHeaders, head, List.flatMap_nil,
        List.nil_append, cut]
      simp
  | cons field fields induction =>
      obtain ⟨count, rfl⟩ := Nat.exists_eq_add_of_lt enough
      have first := split field List.mem_cons_self
      have others : ∀ other ∈ fields, Splits other := by
        intro other member
        exact split other (List.mem_cons_of_mem field member)
      have cut : cutLine (fieldLine field ++ kCRLF ++ (head fields ++ rest)) =
          some (fieldLine field, head fields ++ rest) :=
        cutLine_line (Splits.oneLine first).no_crlf _
      have whole : head (field :: fields) ++ rest =
          fieldLine field ++ kCRLF ++ (head fields ++ rest) := by
        simp [head]
      have written : fieldLine field ≠ [] := by simp [fieldLine]
      have fits : fields.length < (field :: fields).length + count := by
        rw [List.length_cons]
        omega
      rw [whole, readHeaders, cut]
      simp only [Option.bind_eq_bind, Option.bind_some, if_neg written,
        cutAt_fieldLine first.2.1]
      rw [induction others _ fits, Std.ExtTreeMap.insertMany_cons]

theorem length_lt_head (fields : List (List Byte × List Byte))
    (rest : List Byte) :
    fields.length < (head fields ++ rest).length := by
  have lines : fields.length ≤ (fields.flatMap
      (fun field => fieldLine field ++ kCRLF)).length := by
    induction fields with
    | nil => exact Nat.zero_le _
    | cons field fields induction =>
        have two : kCRLF.length = 2 := rfl
        rw [List.flatMap_cons, List.length_append, List.length_append,
          List.length_cons]
        omega
  have two : kCRLF.length = 2 := rfl
  rw [head, List.length_append, List.length_append]
  omega

end Reply

theorem getElem?_insertMany_toList (base headers : HeaderMap)
    (name : List Byte) :
    (base.insertMany headers.toList)[name]? =
      headers[name]?.or base[name]? := by
  cases found : headers[name]? with
  | some value =>
      have member :=
        Std.ExtTreeMap.mem_toList_iff_getElem?_eq_some.mpr found
      rw [Std.ExtTreeMap.getElem?_insertMany_list_of_mem
        Std.ReflCmp.compare_self Std.ExtTreeMap.distinct_keys_toList member]
      rfl
  | none =>
      rw [Option.none_or]
      apply Std.ExtTreeMap.getElem?_insertMany_list_of_contains_eq_false
      rw [Bool.eq_false_iff]
      intro occurs
      obtain ⟨⟨_, value⟩, member, rfl⟩ :=
        List.mem_map.mp (List.contains_iff_mem.mp occurs)
      rw [Std.ExtTreeMap.mem_toList_iff_getElem?_eq_some, found] at member
      cases member

theorem mem_of_getElem?_insertMany {fields : List (List Byte × List Byte)}
    {name value : List Byte}
    (found : (Std.ExtTreeMap.insertMany (∅ : HeaderMap) fields)[name]? =
      some value) :
    (name, value) ∈ fields := by
  rw [Std.ExtTreeMap.getElem?_insertMany_list,
    Std.ExtTreeMap.getElem?_empty, Option.or_none,
    List.findSomeRev?_eq_findSome?_reverse] at found
  obtain ⟨⟨key, text⟩, member, same⟩ :=
    List.exists_of_findSome?_eq_some found
  rw [List.mem_reverse] at member
  dsimp only at same
  split at same
  next equal =>
    obtain rfl := Std.LawfulEqCmp.compare_eq_iff_eq.mp equal
    cases same
    exact member
  next => cases same

namespace HttpResponse

variable {response : HttpResponse}

theorem oneLine_ascii (n : Nat) : OneLine (ascii (toString n)) :=
  ⟨notMem_toString (.inl (by decide)) n, notMem_toString (.inl (by decide)) n⟩

theorem Readable.splits (readable : response.Readable) :
    ∀ field ∈ response.fields, Splits field := by
  have connection : OneLine (ascii "Connection") ∧
      colonByte ∉ ascii "Connection" := by
    exact ⟨⟨by decide, by decide⟩, by decide⟩
  have length : OneLine (ascii "Content-Length") ∧
      colonByte ∉ ascii "Content-Length" := by
    exact ⟨⟨by decide, by decide⟩, by decide⟩
  have close : OneLine (ascii "close") := ⟨by decide, by decide⟩
  have alive : OneLine (ascii "Keep-Alive") := ⟨by decide, by decide⟩
  intro field member
  rcases List.mem_append.mp member with own | given
  · rw [framing] at own
    split at own
    · obtain rfl := List.mem_singleton.mp own
      exact ⟨connection.1, connection.2, close⟩
    · rcases List.mem_cons.mp own with rfl | own
      · exact ⟨length.1, length.2, oneLine_ascii _⟩
      · obtain rfl := List.mem_singleton.mp own
        exact ⟨connection.1, connection.2, alive⟩
  · obtain ⟨header, here, rfl⟩ := List.mem_map.mp given
    obtain ⟨name, noColon, _⟩ := readable.names header here
    exact ⟨name.passed, fun occurs => noColon (List.mem_of_mem_take occurs),
      (readable.values header here).passed⟩

theorem Readable.own_names (readable : response.Readable) :
    response.headers[ascii "Content-Length"]? = none ∧
      response.headers[ascii "Connection"]? = none := by
  have absent : ∀ name, (∀ header ∈ response.headers.toList,
      header.1 ≠ name) → response.headers[name]? = none := by
    intro name other
    cases found : response.headers[name]? with
    | none => rfl
    | some value =>
        have member :=
          Std.ExtTreeMap.mem_toList_iff_getElem?_eq_some.mpr found
        exact (other _ member rfl).elim
  exact ⟨absent _ fun header member => (readable.names header member).2.2.1,
    absent _ fun header member => (readable.names header member).2.2.2⟩

/-- What reading the header lines of a response finds. -/
def found (response : HttpResponse) : HeaderMap :=
  Std.ExtTreeMap.insertMany ∅ response.fields

theorem Short.fields_eq (short : response.Short) :
    response.fields = response.framing ++ response.headers.toList := by
  have same : ∀ header ∈ response.headers.toList,
      Prod.map passed passed header = header := by
    intro header member
    obtain ⟨name, value⟩ := short.headers header member
    exact Prod.ext (passed_eq_self name) (passed_eq_self value)
  rw [fields, List.map_congr_left same, List.map_id']

theorem Short.getElem?_found (short : response.Short) (name : List Byte) :
    response.found[name]? = response.headers[name]?.or
      (Std.ExtTreeMap.insertMany (∅ : HeaderMap) response.framing)[name]? := by
  rw [found, short.fields_eq, Std.ExtTreeMap.insertMany_append,
    getElem?_insertMany_toList]

theorem Readable.found_close (readable : response.Readable)
    (short : response.Short) (close : response.closeConnection = true) :
    response.found = response.reply.headers ∧
      response.found[ascii "Content-Length"]? = none := by
  have different : ascii "Connection" ≠ ascii "Content-Length" := by decide
  have own : (Std.ExtTreeMap.insertMany (∅ : HeaderMap) response.framing) =
      (∅ : HeaderMap).insert (ascii "Connection") (ascii "close") := by
    rw [framing, if_pos close, Std.ExtTreeMap.insertMany_list_singleton]
  constructor
  · apply Std.ExtTreeMap.ext_getElem?
    intro name
    rw [short.getElem?_found, own]
    simp only [reply, close, if_true, Std.ExtTreeMap.getElem?_insert,
      Std.LawfulEqCmp.compare_eq_iff_eq]
    by_cases same : ascii "Connection" = name
    · subst same
      simp [readable.own_names.2]
    · simp [same]
  · rw [short.getElem?_found, own, readable.own_names.1]
    simp [different]

theorem Readable.found_alive (readable : response.Readable)
    (short : response.Short) (alive : response.closeConnection = false) :
    response.found.erase (ascii "Content-Length") = response.reply.headers ∧
      response.found[ascii "Content-Length"]? =
        some (ascii (toString response.body.length)) := by
  have different : ascii "Connection" ≠ ascii "Content-Length" := by decide
  have own : (Std.ExtTreeMap.insertMany (∅ : HeaderMap) response.framing) =
      ((∅ : HeaderMap).insert (ascii "Content-Length")
        (ascii (toString response.body.length))).insert
        (ascii "Connection") (ascii "Keep-Alive") := by
    simp only [framing, alive, Bool.false_eq_true, if_false]
    rw [Std.ExtTreeMap.insertMany_cons,
      Std.ExtTreeMap.insertMany_list_singleton]
  constructor
  · apply Std.ExtTreeMap.ext_getElem?
    intro name
    rw [Std.ExtTreeMap.getElem?_erase, short.getElem?_found, own]
    simp only [reply, alive, Bool.false_eq_true, if_false,
      Std.ExtTreeMap.getElem?_insert, Std.LawfulEqCmp.compare_eq_iff_eq]
    by_cases length : ascii "Content-Length" = name
    · subst length
      simp [readable.own_names.1, different]
    · by_cases same : ascii "Connection" = name
      · subst same
        simp [readable.own_names.2, length]
      · simp [same, length]
  · rw [short.getElem?_found, own, readable.own_names.1]
    simp only [Option.none_or, Std.ExtTreeMap.getElem?_insert,
      Std.LawfulEqCmp.compare_eq_iff_eq, if_neg different, if_true]

/-- Reading what was appended, up to the body. -/
theorem reads_head (readable : response.Readable) (rest : List Byte) :
    Reply.read (response.appended ++ rest) =
      (Reply.readBody response.found (response.body ++ rest)).map fun read =>
        ({ statusCode := response.statusCode.value
           statusMessage := passed response.statusMessage
           headers := read.1
           body := read.2.1 }, read.2.2) := by
  have status : OneLine response.statusLine := by
    refine OneLine.append ⟨by decide, by decide⟩
      ((oneLine_ascii _).append ?_)
    constructor
    · have blank : carriageReturn ≠ space := by decide
      simp [blank, readable.message.passed.1]
    · have blank : lineFeed ≠ space := by decide
      simp [blank, readable.message.passed.2]
  have whole : response.appended ++ rest = response.statusLine ++ kCRLF ++
      (head response.fields ++ (response.body ++ rest)) := by
    rw [response.appended_eq readable.body_short]
    simp
  have cut := cutLine_line status.no_crlf
    (head response.fields ++ (response.body ++ rest))
  have headers : Reply.readHeaders
      (head response.fields ++ (response.body ++ rest)).length ∅
      (head response.fields ++ (response.body ++ rest)) =
      some (response.found, response.body ++ rest) :=
    Reply.readHeaders_head readable.splits ∅
      (Reply.length_lt_head response.fields (response.body ++ rest))
      (response.body ++ rest)
  rw [whole, Reply.read, cut]
  simp only [Option.bind_eq_bind, Option.bind_some,
    Reply.readStatusLine_statusLine, headers]
  cases Reply.readBody response.found (response.body ++ rest) <;> rfl

/-- A short response with a length is taken off the front of any stream. -/
theorem Readable.delimited (readable : response.Readable)
    (short : response.Short) (alive : response.closeConnection = false) :
    Delimited Reply.read response.appended response.reply where
  nonempty := response.appended_ne_nil readable.body_short
  reads := by
    intro rest
    obtain ⟨headers, length⟩ := readable.found_alive short alive
    have fits : response.body.length ≤ (response.body ++ rest).length := by
      simp
    rw [reads_head readable, Reply.readBody, length]
    simp only [decimal_toString, if_pos fits, List.take_left, List.drop_left,
      headers, Option.map_some, passed_eq_self short.message]
    rfl

/-- One without a length is taken up to the end of the stream. -/
theorem Readable.terminal (readable : response.Readable)
    (short : response.Short) :
    Terminal Reply.read response.appended response.reply := by
  cases close : response.closeConnection with
  | false => exact (readable.delimited short close).terminal
  | true =>
      constructor
      · exact response.appended_ne_nil readable.body_short
      · obtain ⟨headers, length⟩ := readable.found_close short close
        have alone := reads_head readable []
        rw [List.append_nil, List.append_nil, Reply.readBody, length] at alone
        rw [alone, headers]
        simp only [Option.map_some, passed_eq_self short.message]
        rfl

theorem Readable.pieces_short (readable : response.Readable)
    (short : response.Short) :
    ∀ piece ∈ response.pieces, piece.length < 2 ^ 31 := by
  have lines : ∀ text, (formatted text).length < 2 ^ 31 := by
    intro text
    exact Nat.lt_of_le_of_lt (List.length_take_le 31 _) (by decide)
  have ending : kCRLF.length < 2 ^ 31 := by decide
  intro piece member
  simp only [pieces, List.mem_append] at member
  rcases member with ((front | framed) | header) | back
  · simp only [List.mem_cons, List.not_mem_nil, or_false] at front
    rcases front with rfl | rfl | rfl
    · exact lines _
    · exact short.message
    · exact ending
  · split at framed
    · obtain rfl := List.mem_singleton.mp framed
      decide
    · simp only [List.mem_cons, List.not_mem_nil, or_false] at framed
      rcases framed with rfl | rfl
      · exact lines _
      · decide
  · obtain ⟨header, here, member⟩ := List.mem_flatMap.mp header
    obtain ⟨name, value⟩ := short.headers header here
    simp only [List.mem_cons, List.not_mem_nil, or_false] at member
    rcases member with rfl | rfl | rfl | rfl
    · exact name
    · decide
    · exact value
    · exact ending
  · simp only [List.mem_cons, List.not_mem_nil, or_false] at back
    rcases back with rfl | rfl
    · exact ending
    · exact readable.body_short

theorem message_mem (response : HttpResponse) :
    response.statusMessage ∈ response.pieces := by
  simp [pieces]

theorem header_mem {header : List Byte × List Byte}
    (member : header ∈ response.headers.toList) :
    header.1 ∈ response.pieces ∧ header.2 ∈ response.pieces := by
  have lines : ∀ piece ∈ [header.1, ascii ": ", header.2, kCRLF],
      piece ∈ response.pieces := by
    intro piece line
    have inside : piece ∈ response.headers.toList.flatMap (fun header =>
        [header.1, ascii ": ", header.2, kCRLF]) :=
      List.mem_flatMap.mpr ⟨header, member, line⟩
    exact List.mem_append_left _ (List.mem_append_right _ inside)
  exact ⟨lines _ (by simp), lines _ (by simp)⟩

theorem framing_names {field : List Byte × List Byte}
    (own : field ∈ response.framing) :
    field.1 = ascii "Content-Length" ∨ field.1 = ascii "Connection" := by
  rw [framing] at own
  split at own
  · obtain rfl := List.mem_singleton.mp own
    exact .inr rfl
  · rcases List.mem_cons.mp own with rfl | own
    · exact .inl rfl
    · obtain rfl := List.mem_singleton.mp own
      exact .inr rfl

theorem readBody_headers {headers after : HeaderMap} {bytes : List Byte}
    {left : List Byte × List Byte}
    (read : Reply.readBody headers bytes = some (after, left)) :
    after = headers ∨ after = headers.erase (ascii "Content-Length") := by
  rw [Reply.readBody] at read
  split at read
  next => exact .inl (congrArg Prod.fst (Option.some.inj read)).symm
  next =>
    split at read
    next => exact .inr (congrArg Prod.fst (Option.some.inj read)).symm
    next => cases read

/-- A response whose append left fronts of the strings is read back as it is
only if they were short. -/
theorem Readable.short_of_read (readable : response.Readable)
    (fronts : ∀ piece ∈ response.pieces, (passed piece).length < 2 ^ 31)
    {rest left : List Byte}
    (read : Reply.read (response.appended ++ rest) =
      some (response.reply, left)) :
    response.Short := by
  rw [reads_head readable] at read
  obtain ⟨⟨after, body, behind⟩, bodyRead, same⟩ :=
    Option.map_eq_some_iff.mp read
  have replies := congrArg Prod.fst same
  have message : passed response.statusMessage = response.statusMessage :=
    congrArg Reply.statusMessage replies
  have headers : after = response.reply.headers :=
    congrArg Reply.headers replies
  constructor
  · rw [← message]
    exact fronts _ response.message_mem
  · intro header member
    obtain ⟨_, _, notLength, notConnection⟩ := readable.names header member
    have here := Std.ExtTreeMap.mem_toList_iff_getElem?_eq_some.mp member
    have read : after[header.1]? = some header.2 := by
      rw [headers, reply, Std.ExtTreeMap.getElem?_insert, if_neg, here]
      intro same
      exact notConnection (Std.LawfulEqCmp.compare_eq_iff_eq.mp same).symm
    have found : response.found[header.1]? = some header.2 := by
      rcases readBody_headers bodyRead with rfl | rfl
      · exact read
      · rw [Std.ExtTreeMap.getElem?_erase] at read
        split at read
        · cases read
        · exact read
    rcases List.mem_append.mp (mem_of_getElem?_insertMany found) with
      own | given
    · rcases framing_names own with length | connection
      · exact absurd length notLength
      · exact absurd connection notConnection
    · obtain ⟨other, among, same⟩ := List.mem_map.mp given
      obtain ⟨name, value⟩ := header_mem among
      obtain ⟨first, second⟩ := Prod.mk.inj same
      rw [← first, ← second]
      exact ⟨fronts _ name, fronts _ value⟩

end HttpResponse

end Muduo
